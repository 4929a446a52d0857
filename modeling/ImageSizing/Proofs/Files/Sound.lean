import Mathlib.Data.List.Nodup
import Mathlib.Tactic.SplitIfs
import ImageSizing.Proofs.Files.Below
import ImageSizing.Proofs.Files.Filling
import ImageSizing.Proofs.Files.Putting

/-!
# Sound trees

A tree is sound if no location is used twice, every entry is in a folder, and the working folder
has a proper location (`Sound`).  The empty tree is sound, and whatever is put where a path leads
keeps a tree sound, for a path that leads to a free location leads right below a folder of the
tree:

    lookLoosely path = .free (base ++ [name])        where base is a folder  (Sound.free_of_lookLoosely)

So all trees are sound that saving, making folders and adding files lead to.
-/

namespace ImageSizing

namespace Path

/-- No part of a path is empty or has a slash. -/
theorem slashless_of_mem_parts {path name : String} (h : name ∈ parts path) :
    Text.Slashless name ∧ name ≠ "" := by
  have hall : ∀ cs : List Char, '/' ∉ (cs.foldr parts.step ([], [])).1 ∧
      ∀ name ∈ (cs.foldr parts.step ([], [])).2, Text.Slashless name ∧ name ≠ "" := by
    intro cs
    induction cs with
    | nil => exact ⟨List.not_mem_nil, List.forall_mem_nil _⟩
    | cons c cs ih =>
      rw [List.foldr_cons]
      unfold parts.step
      split_ifs with hslash hempty
      · exact ⟨List.not_mem_nil, ih.2⟩
      · refine ⟨List.not_mem_nil, List.forall_mem_cons.2 ⟨⟨Text.slashless_ofList.2 ih.1, ?_⟩, ih.2⟩⟩
        simpa using hempty
      · refine ⟨?_, ih.2⟩
        rw [List.mem_cons, not_or]
        exact ⟨Ne.symm hslash, ih.1⟩
  obtain ⟨hfirst, hrest⟩ := hall path.toList
  unfold parts parts.go at h
  dsimp only at h
  split_ifs at h with hempty
  · exact hrest name h
  · rcases List.mem_cons.1 h with rfl | h
    · exact ⟨Text.slashless_ofList.2 hfirst, by simpa using hempty⟩
    · exact hrest name h

end Path

namespace FileTree

/-- No location is used twice, every entry has a proper name in a folder of the tree, and proper
names lead to the working folder. -/
structure Sound (t : FileTree) : Prop where
  working : ∀ name ∈ t.working, Path.IsName name
  nodup : t.locations.Nodup
  placed : ∀ l ∈ t.locations, ∃ base name, l = base ++ [name] ∧ Path.IsName name ∧
    t.at? base = some .folder

variable {t : FileTree}

theorem sound_empty : Sound {} := ⟨List.forall_mem_nil _, List.nodup_nil, List.forall_mem_nil _⟩

/-! ## Entries and locations -/

theorem mem_locations_iff {l : Location} (hne : l ≠ []) : l ∈ t.locations ↔ t.at? l ≠ none := by
  rw [ne_eq, free_iff, not_and_or, not_not]
  unfold locations
  simp [hne]

theorem Sound.nil_not_mem (ht : t.Sound) : [] ∉ t.locations := by
  intro hmem
  obtain ⟨base, name, heq, -⟩ := ht.placed _ hmem
  simp at heq

/-- What is at a location is the one entry that is there. -/
theorem Sound.at?_iff (ht : t.Sound) {l : Location} {e : Entry} (hne : l ≠ []) :
    t.at? l = some e ↔ (l, e) ∈ t.entries := by
  rw [at?_of_ne_nil t hne, Option.map_eq_some_iff]
  constructor
  · rintro ⟨x, hfind, rfl⟩
    have hl : x.1 = l := by simpa using List.find?_some hfind
    rw [← hl]
    exact List.mem_of_find?_eq_some hfind
  · intro hmem
    have hsome : (t.entries.find? fun x => x.1 == l).isSome = true :=
      List.find?_isSome.2 ⟨(l, e), hmem, by simp⟩
    obtain ⟨x, hfind⟩ := Option.isSome_iff_exists.1 hsome
    have hl : x.1 = l := by simpa using List.find?_some hfind
    have hsame : x = (l, e) :=
      List.inj_on_of_nodup_map ht.nodup (List.mem_of_find?_eq_some hfind) hmem hl
    exact ⟨x, hfind, by rw [hsame]⟩

/-- The folder of an entry is a folder. -/
theorem Sound.folder_of_at? (ht : t.Sound) {base : Location} {name : String} {e : Entry}
    (h : t.at? (base ++ [name]) = some e) : Path.IsName name ∧ t.at? base = some .folder := by
  have hmem : base ++ [name] ∈ t.locations := (mem_locations_iff (by simp)).2 (by simp [h])
  obtain ⟨base', name', heq, hname, hfolder⟩ := ht.placed _ hmem
  obtain ⟨rfl, hnames⟩ := List.append_inj' heq rfl
  cases hnames
  exact ⟨hname, hfolder⟩

theorem Sound.folder_dropLast (ht : t.Sound) {loc : Location} (h : t.at? loc = some .folder) :
    t.at? loc.dropLast = some .folder := by
  rcases List.eq_nil_or_concat loc with rfl | ⟨base, name, rfl⟩
  · rfl
  · rw [List.concat_eq_append] at h ⊢
    rw [List.dropLast_concat]
    exact (ht.folder_of_at? h).2

/-! ## Paths in sound trees -/

/-- What a path leads to is there. -/
theorem Sound.at?_of_lookFrom (ht : t.Sound) {names : List String} {loc l : Location}
    {entry e : Entry} (hloc : t.at? loc = some entry)
    (h : t.lookFrom loc entry names = .found l e) : t.at? l = some e := by
  induction names generalizing loc entry with
  | nil =>
    cases h
    exact hloc
  | cons first rest ih =>
    rw [lookFrom_cons_eq] at h
    split_ifs at h with hfolder hdot hdots hlong
    · rw [not_not.1 hfolder] at hloc
      exact ih hloc h
    · rw [not_not.1 hfolder] at hloc
      exact ih (ht.folder_dropLast hloc) h
    · obtain ⟨next, hnext, hlater⟩ := enter_eq_found_iff.1 h
      exact ih hnext hlater

/-- Where a path leads to nothing is right below a folder, under one of the names of the path. -/
theorem Sound.free_of_lookFrom (ht : t.Sound) {names : List String} {loc l : Location}
    {entry : Entry} (hloc : t.at? loc = some entry) (h : t.lookFrom loc entry names = .free l) :
    ∃ base, ∃ name ∈ names, l = base ++ [name] ∧ name ≠ "." ∧ name ≠ ".." ∧
      t.at? base = some .folder := by
  induction names generalizing loc entry with
  | nil => cases h
  | cons first rest ih =>
    have hlater : ∀ {loc' next}, t.at? loc' = some next → t.lookFrom loc' next rest = .free l →
        ∃ base, ∃ name ∈ first :: rest, l = base ++ [name] ∧ name ≠ "." ∧ name ≠ ".." ∧
          t.at? base = some .folder := by
      intro loc' next hloc' h'
      obtain ⟨base, name, hname, hrest⟩ := ih hloc' h'
      exact ⟨base, name, List.mem_cons_of_mem _ hname, hrest⟩
    rw [lookFrom_cons_eq] at h
    split_ifs at h with hfolder hdot hdots hlong
    · rw [not_not.1 hfolder] at hloc
      exact hlater hloc h
    · rw [not_not.1 hfolder] at hloc
      exact hlater (ht.folder_dropLast hloc) h
    · rw [not_not.1 hfolder] at hloc
      rcases enter_eq_free_iff.1 h with ⟨next, hnext, hbelow⟩ | ⟨-, -, rfl⟩
      · exact hlater hnext hbelow
      · exact ⟨loc, first, List.mem_cons_self, rfl, hdot, hdots, hloc⟩

theorem Sound.at?_of_lookLoosely (ht : t.Sound) {path : String} {l : Location} {e : Entry}
    (h : t.lookLoosely path = .found l e) : t.at? l = some e := by
  rcases lookLoosely_cases path with ⟨place, hfound, -, hstuck⟩ | hnames
  · rw [hstuck] at h
    exact absurd h (hfound l e)
  · rw [hnames] at h
    exact ht.at?_of_lookFrom rfl h

/-- What is followed for a path are names without slashes. -/
theorem Sound.slashless_of_mem_namesOf (ht : t.Sound) {path name : String}
    (h : name ∈ t.namesOf path) : Text.Slashless name ∧ name ≠ "" := by
  unfold namesOf at h
  split at h
  · exact Path.slashless_of_mem_parts h
  · rcases List.mem_append.1 h with h | h
    · exact ⟨(ht.working name h).slashless, (ht.working name h).ne_empty⟩
    · exact Path.slashless_of_mem_parts h

theorem Sound.free_of_lookLoosely (ht : t.Sound) {path : String} {l : Location}
    (h : t.lookLoosely path = .free l) : ∃ base name, l = base ++ [name] ∧ Path.IsName name ∧
      t.at? base = some .folder := by
  rcases lookLoosely_cases path with ⟨place, -, hfree, hstuck⟩ | hnames
  · rw [hstuck] at h
    exact absurd h (hfree l)
  · rw [hnames] at h
    obtain ⟨base, name, hmem, hl, hdot, hdots, hbase⟩ := ht.free_of_lookFrom rfl h
    obtain ⟨hslash, hne⟩ := ht.slashless_of_mem_namesOf hmem
    exact ⟨base, name, hl, ⟨hslash, hne, hdot, hdots⟩, hbase⟩

/-! ## Operations -/

theorem map_fst_putEntry {l : Location} {entries : List (Location × Entry)}
    (h : l ∈ entries.map Prod.fst) (entry : Entry) :
    (putEntry l entry entries).map Prod.fst = entries.map Prod.fst := by
  induction entries with
  | nil => cases h
  | cons e rest ih =>
    unfold putEntry
    by_cases hfirst : e.1 = l
    · rw [if_pos hfirst, List.map_cons, List.map_cons, hfirst]
    · rw [if_neg hfirst, List.map_cons, List.map_cons,
        ih ((List.mem_cons.1 h).resolve_left (Ne.symm hfirst))]

theorem nodup_locations_put (h : t.locations.Nodup) (l : Location) (entry : Entry) :
    (t.put l entry).locations.Nodup := by
  by_cases hl : l ∈ t.locations
  · have hlocations : (t.put l entry).locations = t.locations := map_fst_putEntry hl entry
    rw [hlocations]
    exact h
  · have hnew : ∀ e ∈ t.entries, e.1 ≠ l := fun e he heq => hl (heq ▸ List.mem_map_of_mem he)
    have hlocations : (t.put l entry).locations = t.locations ++ [l] := by
      show (putEntry l entry t.entries).map Prod.fst = _
      rw [putEntry_append entry hnew, List.map_append]
      rfl
    rw [hlocations, List.nodup_append]
    refine ⟨h, List.nodup_singleton l, ?_⟩
    intro l' hl' m hm heq
    rw [List.mem_singleton.1 hm] at heq
    exact hl (heq ▸ hl')

/-- Putting an entry right below a folder, though in no folder's place, keeps a tree sound. -/
theorem Sound.put (ht : t.Sound) {l : Location} (hl : ∃ base name, l = base ++ [name] ∧
      Path.IsName name ∧ t.at? base = some .folder)
    (hno : t.at? l ≠ some .folder) (entry : Entry) : (t.put l entry).Sound := by
  have hfolder : ∀ base, t.at? base = some .folder → (t.put l entry).at? base = some .folder := by
    intro base hbase
    rw [at?_put t (ne_nil_of_not_folder hno), if_neg, hbase]
    rintro rfl
    exact hno hbase
  refine ⟨ht.working, nodup_locations_put ht.nodup l entry, ?_⟩
  intro l' hl'
  obtain ⟨base, name, heq, hname, hbase⟩ : ∃ base name, l' = base ++ [name] ∧ Path.IsName name ∧
      t.at? base = some .folder := by
    rcases mem_locations_put.1 hl' with rfl | hl'
    · exact hl
    · exact ht.placed l' hl'
  exact ⟨base, name, heq, hname, hfolder base hbase⟩

theorem Sound.put_free (ht : t.Sound) {path : String} {l : Location}
    (h : t.lookLoosely path = .free l) (entry : Entry) : (t.put l entry).Sound :=
  ht.put (ht.free_of_lookLoosely h) (by rw [at?_of_free h]; nofun) entry

theorem Sound.put_found (ht : t.Sound) {path : String} {l : Location} {e : Entry}
    (h : t.lookLoosely path = .found l e) (he : e ≠ .folder) (entry : Entry) :
    (t.put l entry).Sound := by
  have hat := ht.at?_of_lookLoosely h
  have hno : t.at? l ≠ some .folder := by
    rw [hat]
    exact fun heq => he (Option.some.inj heq)
  have hmem : l ∈ t.locations :=
    (mem_locations_iff (ne_nil_of_not_folder hno)).2 (by rw [hat]; nofun)
  exact ht.put (ht.placed l hmem) hno entry

theorem Sound.put_savePlace (ht : t.Sound) {path : String} {l : Location}
    (h : t.savePlace path = .ok l) (entry : Entry) : (t.put l entry).Sound := by
  unfold savePlace at h
  split at h
  · cases h
  · next l e hfile hloose _ =>
    cases h
    exact ht.put_found hloose hfile _
  · next l hloose _ =>
    cases h
    exact ht.put_free hloose _
  all_goals cases h

theorem Sound.savePicture (ht : t.Sound) (library : PictureLibrary) (path : String) (p : Picture)
    (format : PictureFormat) (quality : Option Int) :
    (t.savePicture library path p format quality).1.Sound := by
  rcases savePicture_cases library t path p format quality with
    hsame | ⟨loc, file, hplace, -, hput⟩
  · rw [hsame]
    exact ht
  · rw [hput]
    exact ht.put_savePlace hplace file

theorem Sound.ensureFolder (ht : t.Sound) (path : String) : (t.ensureFolder path).1.Sound := by
  unfold FileTree.ensureFolder makeFolder
  cases hloose : t.lookLoosely path with
  | free l => exact ht.put_free hloose _
  | _ =>
    dsimp only
    split <;> exact ht

theorem Sound.makeFoldersWithin (ht : t.Sound) (depth : Nat) (path : String) :
    (makeFoldersWithin depth t path).1.Sound := by
  induction depth generalizing path with
  | zero => exact ht.ensureFolder path
  | succ depth ih =>
    unfold FileTree.makeFoldersWithin
    dsimp only
    split_ifs
    · exact ht.ensureFolder path
    · exact ih _
    · exact ih _
    · exact (ih _).ensureFolder path

theorem Sound.makeFolders (ht : t.Sound) (path : String) : (t.makeFolders path).1.Sound :=
  ht.makeFoldersWithin path.length path

/-- Trees made of files that are added one after the other are sound. -/
theorem Sound.addFile (ht : t.Sound) (path : String) (entry : Entry) :
    (t.addFile path entry).Sound := by
  have hmade := ht.makeFolders (Path.folderName path)
  unfold FileTree.addFile
  dsimp only
  split
  · exact hmade
  · next l e hfile hlook => exact hmade.put_found (look_eq_found_iff.1 hlook).1 hfile entry
  · next l hlook => exact hmade.put_free (lookLoosely_of_free hlook) entry
  · exact hmade

end FileTree

end ImageSizing
