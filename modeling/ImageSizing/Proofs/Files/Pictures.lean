import ImageSizing.Proofs.Files.Walking

/-!
# The pictures below a folder

Distinct files below a folder have distinct paths, since the names that lead to a file are the last
parts of its path:

    parts (names.foldl join folder) = parts folder ++ names          (parts_foldl_join)

A listing is therefore strictly ascending, and shows exactly the pictures that a walk can come to
(`listImages_exact`).
-/

namespace ImageSizing

namespace Path

theorem isEmpty_join {folder name : String} (hfolder : folder.isEmpty = false)
    (hname : Text.Slashless name) : (join folder name).isEmpty = false := by
  obtain ⟨rest, hrest⟩ : ∃ rest, join folder name = folder ++ rest := exists_append_eq_join hname
  rw [Bool.eq_false_iff, ne_eq, String.isEmpty_iff] at hfolder ⊢
  rw [hrest, String.append_eq_empty_iff]
  exact fun h => hfolder h.1

theorem parts_foldl_join {folder : String} {names : List String} (hfolder : folder.isEmpty = false)
    (h : ∀ name ∈ names, IsName name) :
    parts (names.foldl join folder) = parts folder ++ names := by
  induction names generalizing folder with
  | nil => exact (List.append_nil _).symm
  | cons name names ih =>
    rw [List.forall_mem_cons] at h
    rw [List.foldl_cons, ih (isEmpty_join hfolder h.1.slashless) h.2, parts_join hfolder h.1,
      List.append_assoc]
    rfl

end Path

namespace FileTree

open ImageSizing.Path (IsName IsPictureName)

variable {t : FileTree} {folder path : String} {base : Location}

/-- No path is listed twice. -/
theorem nodup_filesUnder (ht : t.Sound) (hfolder : folder.isEmpty = false) (base : Location) :
    (t.filesUnder folder base).Nodup := by
  refine List.Nodup.map_on ?_ ((nodup_filesBelow ht base).filter _)
  intro names hnames names' hnames' heq
  have hparts : ∀ names ∈ (t.filesBelow base).filter (isListed folder),
      Path.parts (names.foldl Path.join folder) = Path.parts folder ++ names := by
    intro names hnames
    obtain ⟨e, hat, -⟩ := (mem_filesBelow ht).1 (List.mem_filter.1 hnames).1
    exact Path.parts_foldl_join hfolder (ht.isName hat)
  have hsame := hparts names hnames
  rw [heq, hparts names' hnames'] at hsame
  exact (List.append_cancel_left hsame).symm

/-- What is listed below a folder: the files with the names of pictures in folders that can be
opened. -/
theorem mem_filesUnder (ht : t.Sound) (hbase : t.at? base = some .folder) :
    path ∈ t.filesUnder folder base ↔ ∃ above name e,
      t.at? (base ++ above ++ [name]) = some e ∧ e ≠ .folder ∧ IsPictureName name ∧
        (above.foldl Path.join folder).utf8ByteSize ≤ pathLimit ∧
          path = Path.join (above.foldl Path.join folder) name := by
  unfold filesUnder
  rw [List.mem_map]
  constructor
  · rintro ⟨names, hnames, rfl⟩
    obtain ⟨hbelow, hlisted⟩ := List.mem_filter.1 hnames
    obtain ⟨e, hat, hfile⟩ := (mem_filesBelow ht).1 hbelow
    rcases List.eq_nil_or_concat names with rfl | ⟨above, name, rfl⟩
    · rw [List.append_nil, hbase] at hat
      exact absurd (Option.some.inj hat).symm hfile
    · rw [List.concat_eq_append] at hat hlisted ⊢
      have hname : IsName name := ht.isName hat name (by simp)
      unfold isListed endsSupported isWalked at hlisted
      rw [Bool.and_eq_true, List.getLast?_concat, Option.any_some, List.dropLast_concat,
        decide_eq_true_eq, Path.isSupported_iff hname.slashless] at hlisted
      rw [← List.append_assoc] at hat
      refine ⟨above, name, e, hat, hfile, hlisted.1, hlisted.2, ?_⟩
      rw [List.foldl_append]
      rfl
  · rintro ⟨above, name, e, hat, hfile, hpicture, hsize, rfl⟩
    rw [List.append_assoc] at hat
    have hname : IsName name := ht.isName hat name (by simp)
    refine ⟨above ++ [name], List.mem_filter.2 ⟨(mem_filesBelow ht).2 ⟨e, hat, hfile⟩, ?_⟩, ?_⟩
    · unfold isListed endsSupported isWalked
      rw [Bool.and_eq_true, List.getLast?_concat, Option.any_some, List.dropLast_concat,
        decide_eq_true_eq, Path.isSupported_iff hname.slashless]
      exact ⟨hpicture, hsize⟩
    · rw [List.foldl_append]
      rfl

theorem lookFrom_ne_nullCharacter (names : List String) (loc : Location) (entry : Entry) :
    t.lookFrom loc entry names ≠ .nullCharacter := by
  induction names generalizing loc entry with
  | nil => nofun
  | cons name rest ih =>
    rw [lookFrom_cons_eq]
    split_ifs
    · nofun
    · exact ih _ _
    · exact ih _ _
    · nofun
    · unfold enter
      split
      · exact ih _ _
      · split_ifs <;> nofun

/-- Only a null character keeps a path from being looked up at all. -/
theorem look_eq_nullCharacter_iff : t.look path = .nullCharacter ↔ '\x00' ∈ path.toList := by
  have hloose : t.lookLoosely path = .nullCharacter ↔ '\x00' ∈ path.toList := by
    rw [← List.contains_iff_mem]
    unfold lookLoosely
    split_ifs with hnull hstart hlong
    · exact iff_of_true rfl hnull
    · exact iff_of_false nofun hnull
    · exact iff_of_false nofun hnull
    · exact iff_of_false (lookFrom_ne_nullCharacter _ _ _) hnull
  rw [← hloose]
  unfold look
  split <;> simp_all

theorem pairwise_lt_mergeSort {paths : List String} (h : paths.Nodup) :
    (paths.mergeSort byCodePoint).Pairwise (· < ·) := by
  have hnodup : (paths.mergeSort byCodePoint).Nodup := (List.mergeSort_perm _ _).nodup_iff.2 h
  refine ((pairwise_mergeSort paths).and hnodup).imp ?_
  rintro a b ⟨hle, hne⟩
  by_cases hlt : a < b
  · exact hlt
  · exact absurd (String.le_antisymm (byCodePoint_iff.1 hle) (String.not_lt.1 hlt)) hne

/-- The listing of a folder of a sound tree shows the pictures below it, each once, in ascending
order: every file with a picture's name at any depth, as long as the path of its folder is not too
long, under the path that its names make, and nothing else.  There are walks through the folder, and
what any of them finds is this listing once it is sorted.  A path that leads to no folder has an
empty listing, but a path with a null character in it none at all. -/
theorem listImages_exact (ht : t.Sound) (folder : String) :
    (∀ base, t.look folder = .found base .folder → ∃ paths, t.listImages folder = .ok paths ∧
      paths.Pairwise (· < ·) ∧
      (∀ path, path ∈ paths ↔ ∃ above name e,
        t.at? (base ++ above ++ [name]) = some e ∧ e ≠ .folder ∧ IsPictureName name ∧
          (above.foldl Path.join folder).utf8ByteSize ≤ pathLimit ∧
            path = Path.join (above.foldl Path.join folder) name) ∧
      (∃ found, t.Walk [(folder, base)] found) ∧
      ∀ found, t.Walk [(folder, base)] found → found.mergeSort byCodePoint = paths) ∧
    ('\x00' ∉ folder.toList → (∀ base, t.look folder ≠ .found base .folder) →
      t.listImages folder = .ok []) ∧
    ('\x00' ∈ folder.toList → t.listImages folder = .error .nullCharacter) := by
  refine ⟨?_, ?_, ?_⟩
  · intro base hlook
    have hbase := ht.at?_of_lookLoosely (look_eq_found_iff.1 hlook).1
    have hlisted : t.listImages folder = .ok ((t.filesUnder folder base).mergeSort byCodePoint) := by
      unfold listImages
      rw [hlook]
      rfl
    refine ⟨_, hlisted, pairwise_lt_mergeSort (nodup_filesUnder ht (isEmpty_of_look hlook) base),
      ?_, exists_walk ht _, ?_⟩
    · intro path
      rw [List.mem_mergeSort, mem_filesUnder ht hbase]
    · intro found hwalk
      have hperm := hwalk.perm ht (List.forall_mem_singleton.2 hbase)
      rw [List.flatMap_singleton] at hperm
      exact mergeSort_congr hperm
  · intro hnull hno
    unfold listImages
    split
    · next base hlook => exact absurd hlook (hno base)
    · next hlook => exact absurd (look_eq_nullCharacter_iff.1 hlook) hnull
    · rfl
  · intro hnull
    unfold listImages
    rw [look_eq_nullCharacter_iff.2 hnull]

/-- A tree with pictures at two depths and a file whose name is just dots and an extension. -/
def album : FileTree :=
  ((({} : FileTree).addFile "in/sub/b.JPG" .other).addFile "in/a.png" .other).addFile "in/..png" .other

theorem sound_album : album.Sound :=
  ((sound_empty.addFile _ _).addFile _ _).addFile _ _

/-- A capital extension in a folder below counts; neither a missing folder nor one that cannot be
asked for has pictures. -/
theorem listImages_exact_album :
    album.Sound ∧ album.look "in/" = .found ["in"] .folder ∧
    (∃ paths, album.listImages "in/" = .ok paths ∧ "in/sub/b.JPG" ∈ paths ∧
      ∃ found, album.Walk [("in/", ["in"])] found ∧ found.mergeSort byCodePoint = paths) ∧
    album.listImages "out" = .ok [] ∧ album.listImages "in\x00" = .error .nullCharacter := by
  have hlook : album.look "in/" = .found ["in"] .folder := by decide
  obtain ⟨paths, hpaths, -, hmem, ⟨found, hwalk⟩, hsorted⟩ :=
    (listImages_exact sound_album "in/").1 ["in"] hlook
  have hat : album.at? (["in"] ++ ["sub"] ++ ["b.JPG"]) = some .other := by decide
  have hext : ".JPG".toLower = ".jpg" := by
    rw [← String.toList_inj, Text.toList_toLower]
    rfl
  have hpicture : IsPictureName "b.JPG" := by
    refine ⟨"b", ".JPG", rfl, ⟨'b', by decide, by decide⟩, ?_⟩
    rw [hext]
    decide
  refine ⟨sound_album, hlook, ⟨paths, hpaths, ?_, found, hwalk, hsorted found hwalk⟩, ?_, ?_⟩
  · exact (hmem _).2 ⟨["sub"], "b.JPG", .other, hat, by decide, hpicture, by decide, by decide⟩
  · refine (listImages_exact sound_album "out").2.1 (by decide) ?_
    have hfree : album.look "out" = .free ["out"] := by decide
    intro base hbase
    rw [hfree] at hbase
    cases hbase
  · exact (listImages_exact sound_album "in\x00").2.2 (by decide)

/-- A path to one folder, with a number of slashes at its end. -/
def slashed (n : Nat) : String := String.ofList ('d' :: List.replicate n '/')

theorem slashed_succ (n : Nat) : slashed (n + 1) = String.ofList (('d' :: List.replicate n '/') ++ ['/']) := by
  unfold slashed
  rw [List.replicate_succ', List.cons_append]

theorem utf8ByteSize_slashed (n : Nat) : (slashed n).utf8ByteSize = n + 1 := by
  induction n with
  | zero => decide
  | succ n ih =>
    rw [slashed_succ, String.ofList_append, String.utf8ByteSize_append]
    exact congrArg (· + 1) ih

theorem parts_slashed (n : Nat) : Path.parts (slashed n) = ["d"] := by
  induction n with
  | zero => decide
  | succ n ih =>
    rw [slashed_succ, Path.parts_slash]
    exact ih

/-- A tree with a picture in a folder of a folder. -/
def nested : FileTree := ({} : FileTree).addFile "d/sub/a.png" .other

theorem look_slashed {n : Nat} (h : n < pathLimit) : nested.look (slashed n) = .found ["d"] .folder := by
  have hnull : (slashed n).toList.contains '\x00' = false := by
    unfold slashed
    rw [String.toList_ofList]
    simp
  have hempty : (slashed n).isEmpty = false := by
    rw [Bool.eq_false_iff, ne_eq, String.isEmpty_iff]
    intro heq
    have hsize := utf8ByteSize_slashed n
    rw [heq] at hsize
    cases hsize
  have hnames : nested.namesOf (slashed n) = ["d"] := by
    have hhead : (slashed n).toList.head? ≠ some '/' := by
      unfold slashed
      rw [String.toList_ofList]
      exact fun h => absurd (Option.some.inj h) (by decide)
    unfold namesOf
    rw [if_neg hhead, parts_slashed]
    rfl
  have hloose : nested.lookLoosely (slashed n) = .found ["d"] .folder := by
    unfold lookLoosely
    rw [hnull, hempty, utf8ByteSize_slashed, if_neg Bool.false_ne_true, if_neg Bool.false_ne_true,
      if_neg (by omega), hnames]
    decide
  exact look_eq_found_iff.2 ⟨hloose, .inl rfl⟩

/-- From a path that is too long to be made longer, the folder below is not opened. -/
theorem listImages_of_long {path : String} (hlook : nested.look path = .found ["d"] .folder)
    (hlong : pathLimit ≤ path.utf8ByteSize) : nested.listImages path = .ok [] := by
  have hname : Text.Slashless "sub" := by decide
  have hsub : pathLimit < (Path.join path "sub").utf8ByteSize := by
    obtain ⟨rest, hrest⟩ : ∃ rest, Path.join path "" = path ++ rest :=
      Path.exists_append_eq_join Text.slashless_empty
    have hsize : "sub".utf8ByteSize = 3 := rfl
    rw [Path.join_eq_append hname, hrest, String.utf8ByteSize_append, String.utf8ByteSize_append,
      hsize]
    omega
  have hlisted : isListed path ["sub", "a.png"] = false := by
    have hwalked : isWalked path ["sub", "a.png"] = false := decide_eq_false (Nat.not_le.2 hsub)
    unfold isListed
    rw [hwalked, Bool.and_false]
  have hbelow : nested.filesBelow ["d"] = [["sub", "a.png"]] := by decide
  unfold listImages
  rw [hlook]
  dsimp only
  rw [hbelow, List.filter_cons_of_neg (by rw [hlisted]; exact Bool.false_ne_true), List.filter_nil,
    List.map_nil, List.mergeSort_nil]

/-- A path that leads to no folder may have no listing either, and a folder with a long path is
listed without the pictures in the folders below it. -/
theorem listImages_overlooks :
    ((∀ base, nested.look "d\x00" ≠ .found base .folder) ∧
      nested.listImages "d\x00" = .error .nullCharacter) ∧
    nested.look (slashed 4094) = .found ["d"] .folder ∧
      nested.at? (["d"] ++ ["sub"] ++ ["a.png"]) = some .other ∧
      nested.listImages (slashed 4094) = .ok [] := by
  have hnull : nested.look "d\x00" = .nullCharacter := look_eq_nullCharacter_iff.2 (by decide)
  have hlook : nested.look (slashed 4094) = .found ["d"] .folder := by
    refine look_slashed ?_
    unfold pathLimit
    omega
  have hlong : pathLimit ≤ (slashed 4094).utf8ByteSize := by
    rw [utf8ByteSize_slashed]
    unfold pathLimit
    omega
  refine ⟨⟨?_, ?_⟩, hlook, by decide, listImages_of_long hlook hlong⟩
  · rw [hnull]
    nofun
  · unfold listImages
    rw [hnull]

end FileTree

end ImageSizing
