import Mathlib.Data.List.Induction
import ImageSizing.Proofs.Files.Extensions
import ImageSizing.Proofs.Files.Listing
import ImageSizing.Proofs.Files.Sound

/-!
# Walks

A listing is made by a walk: from folder to folder, each of which tells the names in it in an order
of its own (`Enumerates`), and which goes on with the folders among these (`Walk`).  A folder whose
path is too long cannot be opened and is passed over.  What a walk finds is, up to its order, what
the flat list of entries has below the folder:

    found ~ work.flatMap fun (path, loc) => filesUnder path loc          (Walk.perm)

In a sound tree every walk comes to an end, and distinct files have distinct paths.  So a listing
shows each picture once, in order, whatever walk has found them (`listImages_exact`).
-/

namespace ImageSizing.FileTree

open ImageSizing.Path (IsName IsPictureName)

variable {t : FileTree} {loc : Location} {path : String}

/-! ## Walks -/

/-- The names of the files in a folder and of the folders in it, each once and in some order. -/
structure Enumerates (t : FileTree) (loc : Location) (files folders : List String) : Prop where
  files_nodup : files.Nodup
  folders_nodup : folders.Nodup
  mem_files : ∀ name, name ∈ files ↔ ∃ e, t.at? (loc ++ [name]) = some e ∧ e ≠ .folder
  mem_folders : ∀ name, name ∈ folders ↔ t.at? (loc ++ [name]) = some .folder

/-- A walk through some folders, given by their paths and locations, and the pictures that it finds:
it opens one folder after the other, takes the pictures in it and goes on with the folders in it. -/
inductive Walk (t : FileTree) : List (String × Location) → List String → Prop
  | done : Walk t [] []
  | pass {path : String} {loc : Location} {rest : List (String × Location)} {found : List String}
      (long : pathLimit < path.utf8ByteSize) (later : Walk t rest found) :
      Walk t ((path, loc) :: rest) found
  | enter {path : String} {loc : Location} {rest : List (String × Location)}
      {files folders found : List String} (short : path.utf8ByteSize ≤ pathLimit)
      (names : t.Enumerates loc files folders)
      (later : Walk t (folders.map (fun name => (Path.join path name, loc ++ [name])) ++ rest) found) :
      Walk t ((path, loc) :: rest) ((files.filter Path.isSupported).map (Path.join path) ++ found)

theorem Walk.append {work work' : List (String × Location)} {found found' : List String}
    (h : t.Walk work found) (h' : t.Walk work' found') :
    t.Walk (work ++ work') (found ++ found') := by
  induction h with
  | done => exact h'
  | pass long later ih => exact .pass long ih
  | enter short names later ih =>
    rw [List.append_assoc] at ih ⊢
    exact .enter short names ih

/-! ## Files below a folder -/

/-- Everything on the way to an entry is a folder. -/
theorem Sound.folder_of_append (ht : t.Sound) {base names : Location} {e : Entry} (hne : names ≠ [])
    (h : t.at? (base ++ names) = some e) : t.at? base = some .folder := by
  induction names using List.reverseRecOn generalizing e with
  | nil => exact absurd rfl hne
  | append_singleton names name ih =>
    rw [← List.append_assoc] at h
    have hfolder := (ht.folder_of_at? h).2
    by_cases hnames : names = []
    · rwa [hnames, List.append_nil] at hfolder
    · exact ih hnames hfolder

theorem Sound.isName (ht : t.Sound) {base names : Location} {e : Entry}
    (h : t.at? (base ++ names) = some e) : ∀ name ∈ names, IsName name := by
  induction names using List.reverseRecOn generalizing e with
  | nil => exact List.forall_mem_nil _
  | append_singleton names name ih =>
    rw [← List.append_assoc] at h
    obtain ⟨hname, hfolder⟩ := ht.folder_of_at? h
    rw [List.forall_mem_append, List.forall_mem_singleton]
    exact ⟨ih hfolder, hname⟩

theorem mem_filesBelow (ht : t.Sound) {names : Location} :
    names ∈ t.filesBelow loc ↔ ∃ e, t.at? (loc ++ names) = some e ∧ e ≠ .folder := by
  unfold filesBelow
  rw [List.mem_filterMap]
  constructor
  · rintro ⟨⟨l, e⟩, hmem, h⟩
    split at h
    · next hbelow =>
      cases h
      rw [Bool.and_eq_true, List.isPrefixOf_iff_prefix, bne_iff_ne] at hbelow
      obtain ⟨⟨names, rfl⟩, hfile⟩ := hbelow
      rw [List.drop_left]
      have hne : loc ++ names ≠ [] := by
        intro hnil
        rw [hnil] at hmem
        exact ht.nil_not_mem (List.mem_map_of_mem hmem)
      exact ⟨e, (ht.at?_iff hne).2 hmem, hfile⟩
    · cases h
  · rintro ⟨e, hat, hfile⟩
    have hne : loc ++ names ≠ [] := by
      intro hnil
      rw [hnil] at hat
      exact hfile (Option.some.inj hat).symm
    refine ⟨(loc ++ names, e), (ht.at?_iff hne).1 hat, ?_⟩
    rw [if_pos, List.drop_left]
    rw [Bool.and_eq_true, List.isPrefixOf_iff_prefix, bne_iff_ne]
    exact ⟨List.prefix_append _ _, hfile⟩

theorem nodup_filesBelow (ht : t.Sound) (loc : Location) : (t.filesBelow loc).Nodup := by
  have hentries : t.entries.Pairwise fun x y => x.1 ≠ y.1 := List.pairwise_map.1 ht.nodup
  refine List.pairwise_filterMap.2 (hentries.imp ?_)
  intro x y hne names hx names' hy heq
  split at hx
  · next hbelow =>
    split at hy
    · next hbelow' =>
      cases hx
      cases hy
      rw [Bool.and_eq_true, List.isPrefixOf_iff_prefix] at hbelow hbelow'
      rw [← List.prefix_iff_eq_append.1 hbelow.1, ← List.prefix_iff_eq_append.1 hbelow'.1, heq] at hne
      exact hne rfl
    · cases hy
  · cases hx

theorem mem_filesBelow_append (ht : t.Sound) {name : String} {names : Location} :
    names ∈ t.filesBelow (loc ++ [name]) ↔ name :: names ∈ t.filesBelow loc := by
  rw [mem_filesBelow ht, mem_filesBelow ht, List.append_assoc]
  rfl

/-- A folder is not among the files below it. -/
theorem ne_nil_of_mem_filesBelow (ht : t.Sound) (hloc : t.at? loc = some .folder)
    {names : Location} (h : names ∈ t.filesBelow loc) : names ≠ [] := by
  rintro rfl
  obtain ⟨e, hat, hfile⟩ := (mem_filesBelow ht).1 h
  rw [List.append_nil, hloc] at hat
  exact hfile (Option.some.inj hat).symm

section Enumerated

variable {files folders : List String}

/-- One name is not that of a file and of a folder. -/
theorem Enumerates.not_mem_folders (h : t.Enumerates loc files folders) {name : String}
    (hname : name ∈ files) : name ∉ folders := by
  intro hname'
  obtain ⟨e, hat, hfile⟩ := (h.mem_files name).1 hname
  rw [(h.mem_folders name).1 hname'] at hat
  exact hfile (Option.some.inj hat).symm

theorem mem_filesBelow_iff_enumerated (ht : t.Sound) (hloc : t.at? loc = some .folder)
    (h : t.Enumerates loc files folders) {names : Location} :
    names ∈ t.filesBelow loc ↔ (∃ name ∈ files, [name] = names) ∨
      ∃ name ∈ folders, ∃ rest ∈ t.filesBelow (loc ++ [name]), name :: rest = names := by
  constructor
  · intro hnames
    obtain ⟨name, rest, rfl⟩ := List.exists_cons_of_ne_nil (ne_nil_of_mem_filesBelow ht hloc hnames)
    obtain ⟨e, hat, hfile⟩ := (mem_filesBelow ht).1 hnames
    by_cases hrest : rest = []
    · rw [hrest] at hat ⊢
      exact .inl ⟨name, (h.mem_files name).2 ⟨e, hat, hfile⟩, rfl⟩
    · rw [List.append_cons] at hat
      have hname := (h.mem_folders name).2 (ht.folder_of_append hrest hat)
      exact .inr ⟨name, hname, rest, (mem_filesBelow_append ht).2 hnames, rfl⟩
  · rintro (⟨name, hname, rfl⟩ | ⟨name, hname, rest, hrest, rfl⟩)
    · exact (mem_filesBelow ht).2 ((h.mem_files name).1 hname)
    · exact (mem_filesBelow_append ht).1 hrest

theorem Enumerates.nodup_below (ht : t.Sound) (h : t.Enumerates loc files folders) :
    (folders.flatMap fun name => (t.filesBelow (loc ++ [name])).map (name :: ·)).Nodup := by
  rw [List.nodup_flatMap]
  constructor
  · intro name _
    exact (nodup_filesBelow ht _).map fun a b hab => (List.cons.inj hab).2
  · refine h.folders_nodup.imp ?_
    intro name name' hne names hnames hnames'
    obtain ⟨_, -, rfl⟩ := List.mem_map.1 hnames
    obtain ⟨_, -, heq⟩ := List.mem_map.1 hnames'
    exact hne (List.cons.inj heq).1.symm

/-- The files below a folder are those in it, and those below the folders in it. -/
theorem perm_filesBelow (ht : t.Sound) (hloc : t.at? loc = some .folder)
    (h : t.Enumerates loc files folders) :
    (t.filesBelow loc).Perm (files.map (fun name => [name]) ++
      folders.flatMap fun name => (t.filesBelow (loc ++ [name])).map (name :: ·)) := by
  rw [List.perm_ext_iff_of_nodup (nodup_filesBelow ht loc)]
  · intro names
    rw [mem_filesBelow_iff_enumerated ht hloc h, List.mem_append, List.mem_map, List.mem_flatMap]
    simp only [List.mem_map]
  · rw [List.nodup_append]
    refine ⟨h.files_nodup.map fun a b hab => (List.cons.inj hab).1, h.nodup_below ht, ?_⟩
    intro names hnames names' hnames' heq
    obtain ⟨name, hname, rfl⟩ := List.mem_map.1 hnames
    obtain ⟨name', hname', hmem⟩ := List.mem_flatMap.1 hnames'
    obtain ⟨rest, -, rfl⟩ := List.mem_map.1 hmem
    obtain ⟨rfl, -⟩ := List.cons.inj heq
    exact h.not_mem_folders hname hname'

end Enumerated

/-! ## Paths below a folder -/

/-- The paths of the pictures that the entries have below a folder, as a listing shows them. -/
def filesUnder (t : FileTree) (path : String) (loc : Location) : List String :=
  ((t.filesBelow loc).filter (isListed path)).map fun names => names.foldl Path.join path

theorem utf8ByteSize_le_foldl {names : List String} (h : ∀ name ∈ names, IsName name)
    (path : String) : path.utf8ByteSize ≤ (names.foldl Path.join path).utf8ByteSize := by
  induction names generalizing path with
  | nil => exact Nat.le_refl _
  | cons name names ih =>
    rw [List.forall_mem_cons] at h
    have hjoin : path.utf8ByteSize ≤ (Path.join path name).utf8ByteSize := by
      obtain ⟨rest, hrest⟩ : ∃ rest, Path.join path name = path ++ rest :=
        Path.exists_append_eq_join h.1.slashless
      rw [hrest, String.utf8ByteSize_append]
      omega
    exact Nat.le_trans hjoin (ih h.2 (Path.join path name))

/-- Below a path that is too long nothing is listed. -/
theorem filesUnder_of_long (ht : t.Sound) (h : pathLimit < path.utf8ByteSize) :
    t.filesUnder path loc = [] := by
  unfold filesUnder
  rw [List.map_eq_nil_iff, List.filter_eq_nil_iff]
  intro names hnames
  obtain ⟨e, hat, -⟩ := (mem_filesBelow ht).1 hnames
  have habove : ∀ name ∈ names.dropLast, IsName name :=
    fun name hname => ht.isName hat name (List.dropLast_subset _ hname)
  have hsize := utf8ByteSize_le_foldl habove path
  unfold isListed isWalked
  rw [Bool.and_eq_true, decide_eq_true_eq]
  omega

theorem isListed_singleton (h : path.utf8ByteSize ≤ pathLimit) (name : String) :
    isListed path [name] = Path.isSupported name := by
  have hwalked : isWalked path [name] = true := decide_eq_true h
  unfold isListed endsSupported
  rw [hwalked, Bool.and_true, List.getLast?_singleton, Option.any_some]

theorem isListed_cons {names : List String} (hne : names ≠ []) (name : String) :
    isListed path (name :: names) = isListed (Path.join path name) names := by
  unfold isListed isWalked endsSupported
  rw [List.getLast?_cons_of_ne_nil hne, List.dropLast_cons_of_ne_nil hne]
  rfl

/-- What is listed below a folder that can be opened: the pictures in it, and what is listed below
the folders in it. -/
theorem perm_filesUnder (ht : t.Sound) (hloc : t.at? loc = some .folder)
    (hshort : path.utf8ByteSize ≤ pathLimit) {files folders : List String}
    (h : t.Enumerates loc files folders) :
    (t.filesUnder path loc).Perm ((files.filter Path.isSupported).map (Path.join path) ++
      folders.flatMap fun name => t.filesUnder (Path.join path name) (loc ++ [name])) := by
  have hperm := ((perm_filesBelow ht hloc h).filter (isListed path)).map
    fun names => names.foldl Path.join path
  rw [List.filter_append, List.map_append, List.filter_flatMap, List.map_flatMap] at hperm
  have hfiles : ((files.map fun name => [name]).filter (isListed path)).map
      (fun names => names.foldl Path.join path) =
        (files.filter Path.isSupported).map (Path.join path) := by
    have hlisted : (isListed path ∘ fun name => [name]) = Path.isSupported := by
      funext name
      rw [Function.comp_apply, isListed_singleton hshort]
    rw [List.filter_map, List.map_map, hlisted]
    rfl
  have hfolder : ∀ name ∈ folders,
      (((t.filesBelow (loc ++ [name])).map (name :: ·)).filter (isListed path)).map
        (fun names => names.foldl Path.join path) =
      t.filesUnder (Path.join path name) (loc ++ [name]) := by
    intro name hname
    have hlisted : (t.filesBelow (loc ++ [name])).filter (isListed path ∘ (name :: ·)) =
        (t.filesBelow (loc ++ [name])).filter (isListed (Path.join path name)) := by
      refine List.filter_congr fun names hnames => ?_
      rw [Function.comp_apply]
      exact isListed_cons (ne_nil_of_mem_filesBelow ht ((h.mem_folders name).1 hname) hnames) name
    rw [List.filter_map, List.map_map, hlisted]
    rfl
  rw [hfiles, List.flatMap_congr hfolder] at hperm
  exact hperm

/-- A walk finds what the entries have below its folders, whatever the orders in which the folders
tell their names. -/
theorem Walk.perm (ht : t.Sound) {work : List (String × Location)} {found : List String}
    (h : t.Walk work found) (hwork : ∀ w ∈ work, t.at? w.2 = some .folder) :
    found.Perm (work.flatMap fun w => t.filesUnder w.1 w.2) := by
  induction h with
  | done => exact .refl _
  | @pass path loc rest found long later ih =>
    rw [List.forall_mem_cons] at hwork
    rw [List.flatMap_cons, filesUnder_of_long ht long]
    exact ih hwork.2
  | @enter path loc rest files folders found short names later ih =>
    rw [List.forall_mem_cons] at hwork
    have hlater : found.Perm ((folders.flatMap fun name =>
        t.filesUnder (Path.join path name) (loc ++ [name])) ++
          rest.flatMap fun w => t.filesUnder w.1 w.2) := by
      rw [List.flatMap_append, List.flatMap_map] at ih
      refine ih (List.forall_mem_append.2 ⟨?_, hwork.2⟩)
      intro w hw
      obtain ⟨name, hname, rfl⟩ := List.mem_map.1 hw
      exact (names.mem_folders name).1 hname
    rw [List.flatMap_cons]
    refine (hlater.append_left _).trans ?_
    rw [← List.append_assoc]
    exact (perm_filesUnder ht hwork.1 short names).symm.append_right _

/-! ## The end of walks -/

/-- The names in a folder, in the order of the entries. -/
def namesIn (t : FileTree) (loc : Location) : List String :=
  t.locations.filterMap fun l => if l.dropLast = loc then l.getLast? else none

theorem nodup_namesIn (ht : t.Sound) (loc : Location) : (t.namesIn loc).Nodup := by
  refine List.pairwise_filterMap.2 (ht.nodup.imp ?_)
  intro l l' hne name hl name' hl' heq
  split at hl
  · next hdrop =>
    split at hl'
    · next hdrop' =>
      refine hne ?_
      rw [← List.dropLast_append_getLast? name hl, ← List.dropLast_append_getLast? name' hl',
        hdrop, hdrop', heq]
    · cases hl'
  · cases hl

theorem mem_namesIn {name : String} : name ∈ t.namesIn loc ↔ t.at? (loc ++ [name]) ≠ none := by
  unfold namesIn
  rw [← mem_locations_iff (by simp), List.mem_filterMap]
  constructor
  · rintro ⟨l, hl, h⟩
    split at h
    · next hdrop => rwa [← hdrop, List.dropLast_append_getLast? name h]
    · cases h
  · intro hl
    exact ⟨_, hl, by simp⟩

/-- Every folder tells its names in some order, for example in that of the entries. -/
theorem exists_enumerates (ht : t.Sound) (loc : Location) :
    ∃ files folders, t.Enumerates loc files folders := by
  refine ⟨(t.namesIn loc).filter fun name => t.at? (loc ++ [name]) ≠ some .folder,
    (t.namesIn loc).filter fun name => t.at? (loc ++ [name]) = some .folder,
    (nodup_namesIn ht loc).filter _, (nodup_namesIn ht loc).filter _, ?_, ?_⟩
  · intro name
    rw [List.mem_filter, mem_namesIn, decide_eq_true_eq]
    cases t.at? (loc ++ [name]) with
    | none => simp
    | some e => simp
  · intro name
    rw [List.mem_filter, mem_namesIn, decide_eq_true_eq]
    constructor
    · exact And.right
    · intro h
      exact ⟨by rw [h]; nofun, h⟩

theorem exists_depth (locations : List Location) : ∃ depth, ∀ l ∈ locations, l.length ≤ depth := by
  induction locations with
  | nil => exact ⟨0, List.forall_mem_nil _⟩
  | cons l rest ih =>
    obtain ⟨depth, hdepth⟩ := ih
    refine ⟨l.length + depth, List.forall_mem_cons.2 ⟨Nat.le_add_right _ _, ?_⟩⟩
    intro l' hl'
    exact Nat.le_trans (hdepth l' hl') (Nat.le_add_left _ _)

theorem exists_walk_of_each {work : List (String × Location)}
    (h : ∀ w ∈ work, ∃ found, t.Walk [w] found) : ∃ found, t.Walk work found := by
  induction work with
  | nil => exact ⟨[], .done⟩
  | cons w rest ih =>
    rw [List.forall_mem_cons] at h
    obtain ⟨found, hfound⟩ := h.1
    obtain ⟨later, hlater⟩ := ih h.2
    exact ⟨found ++ later, hfound.append hlater⟩

/-- A walk through a folder comes to an end if those through the folders in it do. -/
theorem exists_walk_of_below (ht : t.Sound) (path : String) (loc : Location)
    (h : ∀ name path', loc ++ [name] ∈ t.locations → ∃ found, t.Walk [(path', loc ++ [name])] found) :
    ∃ found, t.Walk [(path, loc)] found := by
  by_cases hshort : path.utf8ByteSize ≤ pathLimit
  · obtain ⟨files, folders, hnames⟩ := exists_enumerates ht loc
    have hbelow : ∃ found, t.Walk
        (folders.map fun name => (Path.join path name, loc ++ [name])) found := by
      refine exists_walk_of_each fun w hw => ?_
      obtain ⟨name, hname, rfl⟩ := List.mem_map.1 hw
      refine h name _ ((mem_locations_iff (by simp)).2 ?_)
      rw [(hnames.mem_folders name).1 hname]
      nofun
    obtain ⟨found, hfound⟩ := hbelow
    rw [← List.append_nil (folders.map _)] at hfound
    exact ⟨_, .enter hshort hnames hfound⟩
  · exact ⟨[], .pass (by omega) .done⟩

/-- Every walk comes to an end: it goes down a level at a time, and there is a deepest one. -/
theorem exists_walk (ht : t.Sound) (work : List (String × Location)) : ∃ found, t.Walk work found := by
  obtain ⟨depth, hdepth⟩ := exists_depth t.locations
  -- the induction is on the number of levels that are left below a folder
  have hwithin : ∀ k path loc, depth < loc.length + k → ∃ found, t.Walk [(path, loc)] found := by
    intro k
    induction k with
    | zero =>
      intro path loc hk
      refine exists_walk_of_below ht path loc fun name _ hmem => ?_
      have hlength := hdepth _ hmem
      rw [List.length_append, List.length_singleton] at hlength
      omega
    | succ k ih =>
      intro path loc hk
      refine exists_walk_of_below ht path loc fun name path' _ => ih path' (loc ++ [name]) ?_
      rw [List.length_append, List.length_singleton]
      omega
  exact exists_walk_of_each fun w _ => hwithin (depth + 1) w.1 w.2 (by omega)

end ImageSizing.FileTree
