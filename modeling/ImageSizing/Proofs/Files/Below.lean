import ImageSizing.Proofs.Files.FreeNames

/-!
# Right below a folder

A file name without a slash that is put below a folder stays right below it: the path leads to
an entry of that name in the very folder that the folder's path leads to (`look_join`).  The
numbered forms of such a path are of the same kind (`nextAvailable_join`).
-/

namespace ImageSizing

open Text

namespace Path

/-- A name that stands for an entry of a folder. -/
structure IsName (name : String) : Prop where
  slashless : Slashless name
  ne_empty : name ≠ ""
  ne_dot : name ≠ "."
  ne_dots : name ≠ ".."

variable {folder name : String}

/-- A name is put after the folder's path with a slash at its end. -/
theorem join_eq_append (hname : Slashless name) : join folder name = join folder "" ++ name := by
  have hhead : name.toList.head? ≠ some '/' := fun h => hname (List.mem_of_head? h)
  have hnone : "".toList.head? ≠ some '/' := by decide
  unfold join
  rw [if_neg hhead, if_neg hnone]
  split
  · rw [String.append_empty]
  · rw [String.append_empty]

theorem exists_append_eq_join (hname : Slashless name) : ∃ rest, join folder name = folder ++ rest := by
  unfold join
  split_ifs with hhead
  · exact absurd (List.mem_of_head? hhead) hname
  · exact ⟨name, rfl⟩
  · exact ⟨"/" ++ name, String.append_assoc⟩

/-- The path of a folder with a slash at its end. -/
theorem toList_join_empty (hfolder : folder.isEmpty = false) : ∃ ds,
    (join folder "").toList = ds ++ ['/'] ∧
      (folder.toList = ds ∨ folder.toList = ds ++ ['/']) := by
  have hnone : "".toList.head? ≠ some '/' := by decide
  unfold join
  rw [if_neg hnone, hfolder, Bool.false_or]
  split
  · rename_i hlast
    obtain ⟨ds, hds⟩ := List.getLast?_eq_some_iff.1 (of_decide_eq_true hlast)
    exact ⟨ds, by rw [String.append_empty, hds], .inr hds⟩
  · exact ⟨folder.toList, by simp, .inl rfl⟩

theorem toList_join (hfolder : folder.isEmpty = false) (hname : Slashless name) : ∃ ds,
    (join folder name).toList = ds ++ '/' :: name.toList ∧
      (join folder "").toList = ds ++ ['/'] ∧
        (folder.toList = ds ∨ folder.toList = ds ++ ['/']) := by
  obtain ⟨ds, hslash, hds⟩ := toList_join_empty hfolder
  refine ⟨ds, ?_, hslash, hds⟩
  rw [join_eq_append hname, String.toList_append, hslash, List.append_assoc]
  rfl

/-- A slash at the end adds no part. -/
theorem parts_slash (ds : List Char) : parts (String.ofList (ds ++ ['/'])) = parts (String.ofList ds) := by
  unfold parts parts.go
  rw [String.toList_ofList, String.toList_ofList, List.foldr_append]
  rfl

theorem parts_join (hfolder : folder.isEmpty = false) (hname : IsName name) :
    parts (join folder name) = parts folder ++ [name] := by
  have hne : name.toList ≠ [] := fun h => hname.ne_empty (String.toList_eq_nil_iff.1 h)
  obtain ⟨ds, hpath, -, hds⟩ := toList_join hfolder hname.slashless
  have hparts : parts (String.ofList ds) = parts folder := by
    rcases hds with hds | hds
    · rw [← hds, String.ofList_toList]
    · rw [← parts_slash, ← hds, String.ofList_toList]
  rw [← String.ofList_toList (s := join folder name), hpath,
    parts_append_slash ds hne hname.slashless, hparts, String.ofList_toList]

theorem isNoSlash_of_not_mem {cs : List Char} (hcs : '/' ∉ cs) :
    ∀ c ∈ cs.reverse, (c != '/') = true := by
  intro c hc
  rw [bne_iff_ne]
  rintro rfl
  exact hcs (List.mem_reverse.1 hc)

theorem splitLast_of_slashless {cs : List Char} (hcs : '/' ∉ cs) : splitLast cs = ([], cs) := by
  have hpos := isNoSlash_of_not_mem hcs
  unfold splitLast
  rw [← List.append_nil cs.reverse, List.dropWhile_append_of_pos hpos,
    List.takeWhile_append_of_pos hpos]
  simp

theorem splitLast_append_slash (ds : List Char) {name : List Char} (hname : '/' ∉ name) :
    splitLast (ds ++ '/' :: name) = (ds ++ ['/'], name) := by
  have hpos := isNoSlash_of_not_mem hname
  unfold splitLast
  rw [List.reverse_append, List.reverse_cons, List.append_assoc, List.dropWhile_append_of_pos hpos,
    List.takeWhile_append_of_pos hpos]
  simp

end Path

/-- A place that is an entry, or where one can be put. -/
def Place.IsReached : Place → Prop
  | .found .. | .free _ => True
  | _ => False

namespace FileTree

open ImageSizing.Path

variable {t : FileTree} {folder name : String}

theorem isName_numberedName (path : String) (n : Nat) :
    IsName (String.ofList (numberedName path n)) := by
  refine ⟨slashless_ofList.2 (slash_not_mem_numberedName path n), ?_, ?_, ?_⟩
  · exact numberedName_ne path n [] List.not_mem_nil
  · exact numberedName_ne path n ['.'] (by decide)
  · exact numberedName_ne path n ['.', '.'] (by decide)

/-- The numbered forms of a path right below a folder are right below it. -/
theorem numbered_join (hfolder : folder.isEmpty = false) (hname : Slashless name) (n : Nat) :
    numbered (join folder name) n =
      join folder (String.ofList (numberedName (join folder name) n)) := by
  obtain ⟨ds, hpath, hslash, -⟩ := toList_join hfolder hname
  have habove : (splitLast (join folder name).toList).1 = (join folder "").toList := by
    rw [hpath, splitLast_append_slash ds hname, hslash]
  rw [numbered_eq, habove, join_eq_append (isName_numberedName _ n).slashless, ← String.toList_inj]
  simp

theorem firstFree_eq_numbered (t : FileTree) (path : String) (attempts n : Nat) :
    ∃ k, t.firstFree path attempts n = numbered path k := by
  induction attempts generalizing n with
  | zero => exact ⟨n, rfl⟩
  | succ attempts ih =>
    unfold firstFree
    split
    · exact ih (n + 1)
    · exact ⟨n, rfl⟩

theorem nextAvailable_join (t : FileTree) (hfolder : folder.isEmpty = false)
    (hname : IsName name) :
    ∃ name', IsName name' ∧ t.nextAvailable (join folder name) = join folder name' := by
  unfold nextAvailable
  split
  · obtain ⟨k, hk⟩ := t.firstFree_eq_numbered (join folder name) (t.entries.length + 1) 2
    exact ⟨_, isName_numberedName _ k, by rw [hk, numbered_join hfolder hname.slashless]⟩
  · exact ⟨name, hname, rfl⟩

theorem head?_append (hfolder : folder.isEmpty = false) (rest : String) :
    (folder ++ rest).toList.head? = folder.toList.head? := by
  rw [String.toList_append, List.head?_append_of_ne_nil]
  exact fun hnil => by simp [String.toList_eq_nil_iff.1 hnil] at hfolder

/-- A path that starts with another one starts from the same place and goes on. -/
theorem namesOf_append (t : FileTree) {rest : String} {below : List String}
    (hfolder : folder.isEmpty = false) (hparts : parts (folder ++ rest) = parts folder ++ below) :
    t.namesOf (folder ++ rest) = t.namesOf folder ++ below := by
  unfold namesOf
  rw [head?_append hfolder, hparts]
  split
  · rfl
  · exact (List.append_assoc ..).symm

/-- A path leads nowhere if one that it starts with cannot be followed. -/
theorem lookLoosely_of_append {rest : String} (hfolder : folder.isEmpty = false)
    (h : (t.lookLoosely (folder ++ rest)).IsReached) :
    t.lookLoosely folder = t.lookFrom [] .folder (t.namesOf folder) := by
  have hlist : (folder ++ rest).toList = folder.toList ++ rest.toList := String.toList_append
  unfold lookLoosely at h ⊢
  split_ifs at h with hnull hempty hlong
  · exact h.elim
  · exact h.elim
  · exact h.elim
  rw [if_neg, if_neg, if_neg]
  · rw [String.utf8ByteSize_append] at hlong
    omega
  · rw [hfolder]
    exact Bool.false_ne_true
  · intro hmem
    rw [hlist] at hnull
    exact hnull (List.contains_iff_mem.2 (List.mem_append_left _ (List.contains_iff_mem.1 hmem)))

end FileTree

end ImageSizing
