import ImageSizing.Proofs.Files.Saving

/-!
# Listings of growing trees

A listing of a folder shows its files in the order of their paths, whatever the order of
their entries (`listImages_of_folder`).  A tree gains files at some locations (`Gains`) when
all files and folders stay and files come to be at these locations, which were free.  The
listing is then the old one with the new files sorted in (`Gains.listImages`); a file that is
replaced by another one changes no listing, and a new folder none either.
-/

namespace ImageSizing.FileTree

/-! ## Order -/

theorem byCodePoint_iff {a b : String} : byCodePoint a b = true ↔ a ≤ b := by
  unfold byCodePoint
  rw [Bool.not_eq_true', decide_eq_false_iff_not]
  exact String.not_lt

theorem pairwise_mergeSort (paths : List String) :
    (paths.mergeSort byCodePoint).Pairwise fun a b => byCodePoint a b = true := by
  refine List.pairwise_mergeSort ?_ ?_ paths
  · intro a b c hab hbc
    rw [byCodePoint_iff] at hab hbc ⊢
    exact String.le_trans hab hbc
  · intro a b
    rw [Bool.or_eq_true, byCodePoint_iff, byCodePoint_iff]
    exact String.le_total a b

/-- Sorting forgets the order. -/
theorem mergeSort_congr {paths paths' : List String} (h : paths.Perm paths') :
    paths.mergeSort byCodePoint = paths'.mergeSort byCodePoint := by
  have hperm : (paths.mergeSort byCodePoint).Perm (paths'.mergeSort byCodePoint) :=
    ((List.mergeSort_perm _ _).trans h).trans (List.mergeSort_perm _ _).symm
  refine List.Perm.eq_of_pairwise ?_ (pairwise_mergeSort paths) (pairwise_mergeSort paths') hperm
  intro a b _ _ hab hba
  rw [byCodePoint_iff] at hab hba
  exact String.le_antisymm hab hba

/-! ## The locations of files -/

/-- The locations of the files of a tree, in the order of their entries. -/
def fileLocations (t : FileTree) : List Location :=
  t.entries.filterMap fun e => if e.2 = .folder then none else some e.1

def LeadsToFile (t : FileTree) (path : String) (l : Location) : Prop :=
  ∃ e, t.look path = .found l e ∧ e ≠ .folder

theorem LeadsToFile.keeps {t u : FileTree} (hk : t.KeepsKinds u) {path : String} {l : Location}
    (h : t.LeadsToFile path l) : u.LeadsToFile path l := by
  obtain ⟨e, hlook, hfile⟩ := h
  obtain ⟨e', -, -, hfile', hlook'⟩ := look_file hk hfile hlook
  exact ⟨e', hlook', hfile'⟩

theorem LeadsToFile.mem {t : FileTree} {path : String} {l : Location} (h : t.LeadsToFile path l) :
    l ∈ t.fileLocations := by
  obtain ⟨e, hlook, hfile⟩ := h
  obtain ⟨-, hat, -⟩ := look_file (.refl t) hfile hlook
  have hne : l ≠ [] := ne_nil_of_not_folder (by rw [hat]; simpa using hfile)
  rw [at?_of_ne_nil t hne, Option.map_eq_some_iff] at hat
  obtain ⟨entry, hfind, rfl⟩ := hat
  have hl : entry.1 = l := by simpa using List.find?_some hfind
  refine List.mem_filterMap.2 ⟨entry, List.mem_of_find?_eq_some hfind, ?_⟩
  rw [if_neg hfile, hl]

/-- Replacing a file, which is the first entry at its location, moves no file. -/
theorem filterMap_putEntry {loc : Location} {entry : Entry} (hentry : entry ≠ .folder)
    {entries : List (Location × Entry)} {e : Location × Entry}
    (hfind : (entries.find? fun e => e.1 == loc) = some e) (hfile : e.2 ≠ .folder) :
    ((putEntry loc entry entries).filterMap fun e => if e.2 = .folder then none else some e.1) =
      entries.filterMap fun e => if e.2 = .folder then none else some e.1 := by
  induction entries with
  | nil => cases hfind
  | cons first rest ih =>
    unfold putEntry
    by_cases heq : first.1 = loc
    · rw [List.find?_cons_of_pos (by simpa using heq)] at hfind
      cases hfind
      rw [if_pos heq, List.filterMap_cons, List.filterMap_cons, if_neg hfile, if_neg hentry, heq]
    · rw [List.find?_cons_of_neg (by simpa using heq)] at hfind
      rw [if_neg heq, List.filterMap_cons, List.filterMap_cons, ih hfind]

/-- Putting a file in the place of a file moves no file, and elsewhere it adds one. -/
theorem fileLocations_put {t : FileTree} {loc : Location} (h : t.at? loc ≠ some .folder)
    {file : Entry} (hfile : file ≠ .folder) :
    (t.put loc file).fileLocations = t.fileLocations ++ if t.at? loc = none then [loc] else [] := by
  cases hat : t.at? loc with
  | none =>
    unfold fileLocations
    rw [if_pos rfl, entries_put hat, List.filterMap_append, List.filterMap_cons, if_neg hfile]
    rfl
  | some old =>
    have hold := hat
    rw [at?_of_ne_nil t (ne_nil_of_not_folder h), Option.map_eq_some_iff] at hold
    obtain ⟨e, hfind, rfl⟩ := hold
    have hold : e.2 ≠ .folder := by
      intro hfolder
      rw [hat, hfolder] at h
      exact h rfl
    rw [if_neg (Option.some_ne_none _), List.append_nil]
    exact filterMap_putEntry hfile hfind hold

/-! ## Gaining files -/

/-- A tree becomes another one by gaining files at some locations: all that was there stays,
though files may be replaced, and the locations were free. -/
structure Gains (t : FileTree) (new : List Location) (u : FileTree) : Prop where
  kinds : t.KeepsKinds u
  locations : u.fileLocations = t.fileLocations ++ new
  free : ∀ l ∈ new, t.at? l = none

theorem Gains.refl (t : FileTree) : Gains t [] t :=
  ⟨.refl t, (List.append_nil _).symm, List.forall_mem_nil _⟩

theorem Gains.trans {t u v : FileTree} {new new' : List Location} (h : Gains t new u)
    (h' : Gains u new' v) : Gains t (new ++ new') v := by
  refine ⟨h.kinds.trans h'.kinds, ?_, ?_⟩
  · rw [h'.locations, h.locations, List.append_assoc]
  · intro l hl
    rcases List.mem_append.1 hl with hl | hl
    · exact h.free l hl
    · have hfree := h'.free l hl
      cases hat : t.at? l with
      | none => rfl
      | some e =>
        obtain ⟨e', hat', -⟩ := h.kinds.entries l e hat
        rw [hfree] at hat'
        cases hat'

theorem gains_of_folders {t u : FileTree} (h : t.GrownByFolders u) : Gains t [] u := by
  obtain ⟨new, hgrown, hfolders⟩ := h
  have hkinds : t.KeepsKinds u :=
    ⟨hgrown.keeps.working, fun l e he => ⟨e, hgrown.keeps.entries l e he, Iff.rfl⟩⟩
  refine ⟨hkinds, ?_, List.forall_mem_nil _⟩
  have hnone : new.filterMap (fun e => if e.2 = .folder then none else some e.1) = [] := by
    rw [List.filterMap_eq_nil_iff]
    intro e he
    rw [if_pos (hfolders e he)]
  unfold fileLocations
  rw [hgrown.entries, List.filterMap_append, hnone]

theorem gains_put {t : FileTree} {loc : Location} (h : t.at? loc ≠ some .folder) {file : Entry}
    (hfile : file ≠ .folder) :
    Gains t (if t.at? loc = none then [loc] else []) (t.put loc file) := by
  refine ⟨keepsKinds_put h hfile, fileLocations_put h hfile, ?_⟩
  intro l hl
  split at hl
  · rename_i hfree
    rw [List.mem_singleton.1 hl, hfree]
  · cases hl

/-! ## Listings -/

theorem lookFrom_folder {t u : FileTree} (hk : t.KeepsKinds u) {names : List String}
    {loc l : Location} {entry : Entry} (h : t.lookFrom loc entry names = .found l .folder) :
    u.lookFrom loc entry names = .found l .folder := by
  induction names generalizing loc entry with
  | nil => exact h
  | cons name rest ih =>
    rcases lookFrom_cons loc entry name with ⟨loc', hmove⟩ | ⟨place, hfound, _, hstuck⟩ | henter
    · rw [hmove] at h ⊢
      exact ih h
    · rw [hstuck] at h
      exact absurd h (hfound l .folder)
    · rw [henter, enter_eq_found_iff] at h ⊢
      obtain ⟨next, hat, hrest⟩ := h
      obtain rfl : next = .folder :=
        Decidable.byContradiction fun hfile => hfile (eq_of_lookFrom_file hfile hrest).2.2
      obtain ⟨next', hat', hkind⟩ := hk.entries _ _ hat
      rw [hkind.2 rfl] at hat'
      exact ⟨.folder, hat', ih hrest⟩

/-- A path to a folder leads to it ever after. -/
theorem look_folder {t u : FileTree} (hk : t.KeepsKinds u) {path : String} {l : Location}
    (h : t.look path = .found l .folder) : u.look path = .found l .folder := by
  obtain ⟨hloose, hslash⟩ := look_eq_found_iff.1 h
  refine look_eq_found_iff.2 ⟨?_, hslash⟩
  rcases lookLoosely_cases path with ⟨place, hfound, _, hstuck⟩ | hnames
  · rw [hstuck] at hloose
    exact absurd hloose (hfound l .folder)
  · rw [hnames] at hloose ⊢
    rw [namesOf_congr hk.working]
    exact lookFrom_folder hk hloose

/-- The path under which a listing of a folder shows the file at a location, if it is below
the folder, in a folder whose path is not too long, and has the name of a picture. -/
def listedAs (folder : String) (base l : Location) : Option String :=
  if base.isPrefixOf l && isListed folder (l.drop base.length) then
    some ((l.drop base.length).foldl Path.join folder)
  else none

theorem listImages_of_folder {t : FileTree} {folder : String} {base : Location}
    (h : t.look folder = .found base .folder) :
    t.listImages folder =
      .ok ((t.fileLocations.filterMap (listedAs folder base)).mergeSort byCodePoint) := by
  unfold listImages
  rw [h]
  refine congrArg (fun paths => Except.ok (List.mergeSort paths byCodePoint)) ?_
  unfold filesBelow fileLocations
  induction t.entries with
  | nil => rfl
  | cons e rest ih =>
    obtain ⟨l, entry⟩ := e
    rw [List.filterMap_cons, List.filterMap_cons]
    by_cases hfolder : entry = .folder
    · rw [if_pos hfolder, hfolder, bne_self_eq_false, Bool.and_false]
      exact ih
    · rw [if_neg hfolder]
      have hfile : (entry != Entry.folder) = true := by simpa using hfolder
      dsimp only
      rw [hfile, Bool.and_true, List.filterMap_cons]
      unfold listedAs
      cases base.isPrefixOf l with
      | false => exact ih
      | true =>
        cases hlisted : isListed folder (l.drop base.length) with
        | false =>
          rw [if_pos rfl, List.filter_cons_of_neg (by simp [hlisted])]
          exact ih
        | true =>
          rw [if_pos rfl, List.filter_cons_of_pos hlisted, List.map_cons]
          exact congrArg _ ih

/-- A listing whose files stand in order is sorted already. -/
theorem listImages_of_sorted {t : FileTree} {folder : String} {base : Location} {paths : List String}
    (h : t.look folder = .found base .folder)
    (hpaths : t.fileLocations.filterMap (listedAs folder base) = paths)
    (hsorted : paths.Pairwise fun a b => byCodePoint a b = true) : t.listImages folder = .ok paths := by
  rw [listImages_of_folder h, hpaths, List.mergeSort_of_pairwise hsorted]

/-- A listing of a folder shows the file that a path leads to, under some path. -/
def Lists (t : FileTree) (folder destination path : String) : Prop :=
  ∃ base l, t.look folder = .found base .folder ∧ t.LeadsToFile destination l ∧
    listedAs folder base l = some path

theorem Lists.mem {t : FileTree} {folder destination path : String} {paths : List String}
    (h : t.Lists folder destination path) (hpaths : t.listImages folder = .ok paths) :
    path ∈ paths := by
  obtain ⟨base, l, hlook, hleads, hlisted⟩ := h
  rw [listImages_of_folder hlook] at hpaths
  cases hpaths
  rw [(List.mergeSort_perm _ _).mem_iff]
  exact List.mem_filterMap.2 ⟨l, hleads.mem, hlisted⟩

/-- A path that leads to no folder lists nothing. -/
theorem listImages_of_no_folder {t : FileTree} {folder : String}
    (h : ∀ base, t.look folder ≠ .found base .folder) :
    ∀ paths, t.listImages folder = .ok paths → paths = [] := by
  intro paths hpaths
  unfold listImages at hpaths
  split at hpaths
  · rename_i base hlook
    exact absurd hlook (h base)
  · cases hpaths
  · cases hpaths
    rfl

/-- The path of a folder is not empty. -/
theorem isEmpty_of_look {t : FileTree} {path : String} {l : Location} {e : Entry}
    (h : t.look path = .found l e) : path.isEmpty = false := by
  cases hempty : path.isEmpty with
  | false => rfl
  | true =>
    have hnowhere : t.look "" = .noFolder := rfl
    rw [String.isEmpty_iff.1 hempty, hnowhere] at h
    cases h

/-- A tree that gains files lists them beside what it listed before. -/
theorem Gains.listImages {t u : FileTree} {new : List Location} (hg : Gains t new u)
    {folder : String} {base : Location} (h : t.look folder = .found base .folder) :
    u.listImages folder = (t.listImages folder).map fun paths =>
      (paths ++ new.filterMap (listedAs folder base)).mergeSort byCodePoint := by
  rw [listImages_of_folder h, listImages_of_folder (look_folder hg.kinds h), hg.locations,
    List.filterMap_append]
  exact congrArg Except.ok (mergeSort_congr ((List.mergeSort_perm _ _).symm.append_right _))

end ImageSizing.FileTree
