import ImageSizing.Proofs.Files.Below
import ImageSizing.Proofs.Files.Saving

/-!
# Folders made twice

A path that leads to an entry, or to a free location, goes through a folder
(`lookLoosely_parent`).  So making the folders of a path once more adds nothing to the tree
(`makeFolders_makeFolders`), whatever the first time came to.  It fails no more once the path
leads to a folder (`makeFolders_of_isFolder`), and it fails again where it failed before
(`makeFolders_failed`).
-/

namespace ImageSizing

namespace Path

/-! ## The parts of a path -/

theorem go_slash_append (ds cs : List Char) :
    parts.go (ds ++ '/' :: cs) = parts.go ds ++ parts.go cs := by
  have hlast : ('/' :: cs).foldr parts.step ([], []) = ([], [] ++ parts.go cs) := rfl
  unfold parts.go at hlast ⊢
  rw [List.foldr_append, hlast, foldr_step_append]
  dsimp only
  split <;> rfl

theorem go_nil : parts.go [] = [] := rfl

theorem parts_ofList (cs : List Char) : parts (String.ofList cs) = parts.go cs := by
  unfold parts
  rw [String.toList_ofList]

/-- The slashes at the end of a text add no parts. -/
theorem go_trimSlashes (cs : List Char) : parts.go (trimSlashes cs) = parts.go cs := by
  have hall : ∀ (ds ss : List Char), (∀ c ∈ ss, c = '/') → parts.go (ds ++ ss) = parts.go ds := by
    intro ds ss
    induction ss generalizing ds with
    | nil =>
      intro _
      rw [List.append_nil]
    | cons c rest ih =>
      intro hss
      obtain ⟨rfl, hrest⟩ := List.forall_mem_cons.1 hss
      have hnone : parts.go rest = [] := ih [] hrest
      rw [go_slash_append, hnone, List.append_nil]
  unfold trimSlashes
  dsimp only
  split
  · rfl
  · have hslashes : ∀ c ∈ (cs.reverse.takeWhile (· == '/')).reverse, c = '/' := by
      intro c hc
      have htake := List.all_takeWhile (p := fun x => x == '/') (l := cs.reverse)
      exact eq_of_beq (List.all_eq_true.1 htake c (List.mem_reverse.1 hc))
    have hwhole : (cs.reverse.dropWhile (· == '/')).reverse ++
        (cs.reverse.takeWhile (· == '/')).reverse = cs := by
      rw [← List.reverse_append, List.takeWhile_append_dropWhile, List.reverse_reverse]
    rw [← hall _ _ hslashes, hwhole]

theorem splitLast_whole (cs : List Char) : (splitLast cs).1 ++ (splitLast cs).2 = cs := by
  unfold splitLast
  rw [← List.reverse_append, List.takeWhile_append_dropWhile, List.reverse_reverse]

/-- A path is its folder and its name. -/
theorem parts_folderName {path : String} (h : baseName path ≠ "") :
    parts path = parts (folderName path) ++ [baseName path] := by
  have hslash := slash_not_mem_name path.toList
  have hne : (splitLast path.toList).2 ≠ [] := fun hnil => h (by unfold baseName; rw [hnil])
  have hname := parts_name hne hslash
  have hwhole := splitLast_whole path.toList
  unfold folderName baseName
  rw [parts_ofList, go_trimSlashes]
  rw [parts_ofList] at hname
  rcases folder_eq_nil_or_append_slash path.toList with hnone | ⟨ds, hfolder⟩
  · rw [hnone, List.nil_append] at hwhole
    rw [hnone, ← hname, hwhole]
    rfl
  · rw [hfolder, List.append_assoc] at hwhole
    unfold parts
    rw [hfolder, ← hname, go_slash_append ds [], go_nil, List.append_nil, ← go_slash_append]
    exact congrArg parts.go hwhole.symm

theorem exists_append_eq_folderName (path : String) : ∃ rest, path = folderName path ++ rest := by
  have hkept : ∃ ss, trimSlashes (splitLast path.toList).1 ++ ss = (splitLast path.toList).1 := by
    unfold trimSlashes
    dsimp only
    split
    · exact ⟨[], List.append_nil _⟩
    · refine ⟨((splitLast path.toList).1.reverse.takeWhile (· == '/')).reverse, ?_⟩
      rw [← List.reverse_append, List.takeWhile_append_dropWhile, List.reverse_reverse]
  obtain ⟨ss, hss⟩ := hkept
  refine ⟨String.ofList (ss ++ (splitLast path.toList).2), ?_⟩
  unfold folderName
  rw [← String.ofList_append, ← List.append_assoc, hss, splitLast_whole, String.ofList_toList]

end Path

open ImageSizing.Path

namespace FileTree

variable {t : FileTree}

/-! ## The folders on the way -/

theorem not_reached {place : Place} (hfound : ∀ l e, place ≠ .found l e)
    (hfree : ∀ l, place ≠ .free l) : ¬place.IsReached := by
  intro h
  cases place with
  | found l e => exact hfound l e rfl
  | free l => exact hfree l rfl
  | _ => exact h

/-- A walk on from a location is lost unless there is something there. -/
theorem enter_of_reached {loc : Location} {rest : List String} (hne : rest ≠ [])
    (h : (t.enter loc rest).IsReached) :
    ∃ next, t.at? loc = some next ∧ t.enter loc rest = t.lookFrom loc next rest := by
  unfold enter at h ⊢
  cases hat : t.at? loc with
  | some next => exact ⟨next, rfl, rfl⟩
  | none =>
    rw [hat] at h
    dsimp only at h
    rw [if_neg (fun hempty => hne (List.isEmpty_iff.1 hempty))] at h
    exact h.elim

/-- A walk that does not get lost goes through a folder before each further name. -/
theorem lookFrom_append {loc : Location} {e : Entry} {above below : List String}
    (hne : below ≠ []) (h : (t.lookFrom loc e (above ++ below)).IsReached) :
    ∃ base, t.lookFrom loc e above = .found base .folder ∧
      t.lookFrom loc e (above ++ below) = t.lookFrom base .folder below := by
  induction above generalizing loc e with
  | nil =>
    cases below with
    | nil => exact absurd rfl hne
    | cons name rest =>
      by_cases he : e = .folder
      · rw [he]
        exact ⟨loc, rfl, rfl⟩
      · rw [List.nil_append, lookFrom_below_file he] at h
        exact h.elim
  | cons first above ih =>
    rw [List.cons_append] at h ⊢
    rcases lookFrom_cons loc e first with ⟨loc', hmove⟩ | ⟨place, hfound, hfree, hstuck⟩ | henter
    · rw [hmove] at h ⊢
      rw [hmove]
      exact ih h
    · rw [hstuck] at h
      exact absurd h (not_reached hfound hfree)
    · rw [henter] at h
      obtain ⟨next, hat, hnext⟩ := enter_of_reached (List.append_ne_nil_of_right_ne_nil _ hne) h
      rw [hnext] at h
      obtain ⟨base, habove, hbelow⟩ := ih h
      refine ⟨base, ?_, ?_⟩
      · rw [henter]
        unfold enter
        rw [hat]
        exact habove
      · rw [henter, hnext, hbelow]

theorem lookLoosely_of_reached {path : String} (h : (t.lookLoosely path).IsReached) :
    t.lookLoosely path = t.lookFrom [] .folder (t.namesOf path) := by
  rcases lookLoosely_cases path with ⟨place, hfound, hfree, hstuck⟩ | hnames
  · rw [hstuck] at h
    exact absurd h (not_reached hfound hfree)
  · exact hnames t

/-- A path that does not get lost goes through a folder at each of its slashes. -/
theorem lookLoosely_append {folder rest : String} {below : List String}
    (hfolder : folder.isEmpty = false) (hparts : parts (folder ++ rest) = parts folder ++ below)
    (hne : below ≠ []) (h : (t.lookLoosely (folder ++ rest)).IsReached) :
    t.isFolder folder = true ∧
      ∃ base, t.lookLoosely (folder ++ rest) = t.lookFrom base .folder below := by
  have hwalk := lookLoosely_of_reached h
  have habove := lookLoosely_of_append hfolder h
  have hnames := t.namesOf_append hfolder hparts
  rw [hwalk, hnames] at h
  obtain ⟨base, hbase, hbelow⟩ := lookFrom_append hne h
  refine ⟨?_, base, by rw [hwalk, hnames, hbelow]⟩
  have hlook : t.look folder = .found base .folder :=
    look_eq_found_iff.2 ⟨habove.trans hbase, .inl rfl⟩
  unfold isFolder
  rw [hlook]

/-- The parts of a path are those of the path above it and its name. -/
theorem parts_parentAndName {path : String} (h : (parentAndName path).2 ≠ "") :
    parts path = parts (parentAndName path).1 ++ [(parentAndName path).2] := by
  unfold parentAndName at h ⊢
  split
  · rename_i hslash
    rw [if_pos hslash] at h
    have hnone : (splitLast path.toList).2 = [] := by
      rw [← String.toList_ofList (l := (splitLast path.toList).2)]
      exact String.toList_eq_nil_iff.2 (String.isEmpty_iff.1 hslash)
    have hsame : parts path = parts (folderName path) := by
      have hwhole := splitLast_whole path.toList
      rw [hnone, List.append_nil] at hwhole
      unfold folderName
      rw [parts_ofList, go_trimSlashes, hwhole]
      rfl
    rw [hsame]
    exact parts_folderName h
  · rename_i hslash
    rw [if_neg hslash] at h
    exact parts_folderName h

theorem exists_append_eq_parent (path : String) :
    ∃ rest, path = (parentAndName path).1 ++ rest := by
  unfold parentAndName
  split
  · obtain ⟨rest, hrest⟩ := exists_append_eq_folderName path
    obtain ⟨rest', hrest'⟩ := exists_append_eq_folderName (folderName path)
    refine ⟨rest' ++ rest, ?_⟩
    rw [← String.append_assoc, ← hrest', ← hrest]
  · exact exists_append_eq_folderName path

/-- A path that does not get lost goes through the folder above it. -/
theorem lookLoosely_parent {path : String} (hparent : (parentAndName path).1.isEmpty = false)
    (hname : (parentAndName path).2.isEmpty = false) (h : (t.lookLoosely path).IsReached) :
    t.isFolder (parentAndName path).1 = true ∧
      ∃ base, t.lookLoosely path = t.lookFrom base .folder [(parentAndName path).2] := by
  obtain ⟨rest, hrest⟩ := exists_append_eq_parent path
  have hne : (parentAndName path).2 ≠ "" := fun heq => by simp [heq] at hname
  have hparts : parts ((parentAndName path).1 ++ rest) =
      parts (parentAndName path).1 ++ [(parentAndName path).2] := by
    rw [← hrest]
    exact parts_parentAndName hne
  have habove := lookLoosely_append (t := t) hparent hparts (List.cons_ne_nil _ _)
  rw [← hrest] at habove
  exact habove h

theorem hasPath_of_isFolder {path : String} (h : t.isFolder path = true) : t.hasPath path = true := by
  unfold isFolder at h
  split at h
  · rename_i l hlook
    exact hasPath_iff.2 ⟨l, .folder, hlook⟩
  · cases h

/-! ## Making a folder once more -/

variable {path : String}

theorem ensureFolder_of_isFolder (h : t.isFolder path = true) : t.ensureFolder path = (t, none) := by
  obtain ⟨l, hloose⟩ := isFolder_iff.1 h
  unfold ensureFolder makeFolder
  rw [hloose]
  exact if_pos h

/-- Where no folder can be put the tree stays as it is. -/
theorem ensureFolder_of_not_free (h : ∀ l, t.lookLoosely path ≠ .free l) :
    (t.ensureFolder path).1 = t := by
  have hfault : ∃ f, t.makeFolder path = .error f := by
    unfold makeFolder
    cases hloose : t.lookLoosely path with
    | free l => exact absurd hloose (h l)
    | _ => exact ⟨_, rfl⟩
  obtain ⟨f, hmake⟩ := hfault
  unfold ensureFolder
  rw [hmake]
  dsimp only
  split <;> rfl

theorem ensureFolder_of_free {l : Location} (h : t.lookLoosely path = .free l) :
    t.ensureFolder path = (t.put l .folder, none) ∧ (t.put l .folder).isFolder path = true := by
  have hat := at?_of_free h
  refine ⟨?_, isFolder_iff.2 ⟨l, (lookLoosely_free (keeps_put hat .folder) h).2 (at?_put_self hat .folder)⟩⟩
  unfold ensureFolder makeFolder
  rw [h]

/-- Where the tree stays as it is no folder could be put. -/
theorem not_free_of_ensureFolder (h : (t.ensureFolder path).1 = t) (l : Location) :
    t.lookLoosely path ≠ .free l := by
  intro hfree
  obtain ⟨hmade, hfolder⟩ := ensureFolder_of_free hfree
  have hput : t.put l .folder = t := (congrArg Prod.fst hmade).symm.trans h
  rw [hput, isFolder_iff] at hfolder
  obtain ⟨l', hloose⟩ := hfolder
  rw [hfree] at hloose
  cases hloose

theorem ensureFolder_ensureFolder (t : FileTree) (path : String) :
    ((t.ensureFolder path).1.ensureFolder path).1 = (t.ensureFolder path).1 := by
  by_cases hfree : ∃ l, t.lookLoosely path = .free l
  · obtain ⟨l, hloose⟩ := hfree
    obtain ⟨hmade, hfolder⟩ := ensureFolder_of_free hloose
    rw [hmade, ensureFolder_of_isFolder hfolder]
  · have hsame := ensureFolder_of_not_free (not_exists.1 hfree)
    rw [hsame, hsame]

/-- A fault leaves the tree as it was. -/
theorem ensureFolder_unmade {made : FileTree} {f : FileFault}
    (h : t.ensureFolder path = (made, some f)) : t = made := by
  unfold ensureFolder at h
  split at h
  · cases h
  · split at h <;> cases h
    rfl

/-- Where a path gets lost no folder is made, and the fault is not that there is something. -/
theorem ensureFolder_lost (h : ¬(t.lookLoosely path).IsReached) :
    ∃ f, t.ensureFolder path = (t, some f) ∧ isExistence f = false := by
  have hfolder : t.isFolder path = false := by
    refine Bool.eq_false_iff.2 fun hfolder => ?_
    obtain ⟨l, hloose⟩ := isFolder_iff.1 hfolder
    exact h (by rw [hloose]; trivial)
  refine ⟨lostFault path (t.lookLoosely path), ?_, ?_⟩
  · unfold ensureFolder makeFolder
    cases hloose : t.lookLoosely path with
    | found l e => exact absurd (by rw [hloose]; trivial) h
    | free l => exact absurd (by rw [hloose]; trivial) h
    | _ => exact if_neg (by rw [hfolder]; exact Bool.false_ne_true)
  · cases t.lookLoosely path <;> rfl

/-- A fault says that there is no folder. -/
theorem isFolder_of_ensureFolder {made : FileTree} {f : FileFault}
    (h : t.ensureFolder path = (made, some f)) : made.isFolder path = false := by
  unfold ensureFolder at h
  split at h
  · cases h
  · split at h
    · cases h
    · rename_i hfolder
      cases h
      exact Bool.eq_false_iff.2 hfolder

/-! ## Making all folders once more -/

/-- Whether a folder is made with nothing made above it. -/
def needsNoParent (t : FileTree) (path : String) : Bool :=
  (parentAndName path).1.isEmpty || (parentAndName path).2.isEmpty ||
    t.hasPath (parentAndName path).1

theorem makeFoldersWithin_of_needsNoParent (depth : Nat) (h : t.needsNoParent path = true) :
    makeFoldersWithin depth t path = t.ensureFolder path := by
  unfold needsNoParent at h
  cases depth with
  | zero => rfl
  | succ depth =>
    rw [makeFoldersWithin]
    dsimp only
    rw [if_pos h]

theorem makeFoldersWithin_succ (depth : Nat) (h : t.needsNoParent path = false) :
    makeFoldersWithin (depth + 1) t path =
      let above := makeFoldersWithin depth t (parentAndName path).1
      if above.2.any fun f => !isExistence f then above
      else if (parentAndName path).2 = "." then (above.1, none)
      else above.1.ensureFolder path := by
  unfold needsNoParent at h
  rw [makeFoldersWithin]
  dsimp only
  rw [if_neg (by rw [h]; exact Bool.false_ne_true)]

/-- Where a parent is missing, nothing is reached before it is a folder. -/
theorem isFolder_of_reached {u : FileTree} (h : t.needsNoParent path = false)
    (hreached : (u.lookLoosely path).IsReached) : u.isFolder (parentAndName path).1 = true := by
  obtain ⟨h, -⟩ := Bool.or_eq_false_iff.1 h
  obtain ⟨hparent, hname⟩ := Bool.or_eq_false_iff.1 h
  exact (lookLoosely_parent hparent hname hreached).1

/-- Nothing can be put where a path ends in a dot. -/
theorem lookLoosely_dot (h : t.needsNoParent path = false) (hdot : (parentAndName path).2 = ".")
    (u : FileTree) (l : Location) : u.lookLoosely path ≠ .free l := by
  intro hfree
  obtain ⟨h, -⟩ := Bool.or_eq_false_iff.1 h
  obtain ⟨hparent, hname⟩ := Bool.or_eq_false_iff.1 h
  obtain ⟨-, base, hwalk⟩ := lookLoosely_parent (t := u) hparent hname (by rw [hfree]; trivial)
  rw [hdot, hfree] at hwalk
  cases hwalk

theorem needsNoParent_of_isFolder (h : t.isFolder (parentAndName path).1 = true) :
    t.needsNoParent path = true := by
  unfold needsNoParent
  rw [hasPath_of_isFolder h, Bool.or_true]

theorem needsNoParent_of_keeps {u : FileTree} (hk : t.Keeps u) (h : t.needsNoParent path = true) :
    u.needsNoParent path = true := by
  unfold needsNoParent at h ⊢
  rcases Bool.or_eq_true_iff.1 h with hempty | hpath
  · rw [hempty, Bool.true_or]
  · obtain ⟨l, e, hlook⟩ := hasPath_iff.1 hpath
    rw [hasPath_iff.2 ⟨l, e, look_found hk hlook⟩, Bool.or_true]

/-- A path that leads to a folder needs no folders made. -/
theorem makeFolders_of_isFolder (h : t.isFolder path = true) : t.makeFolders path = (t, none) := by
  obtain ⟨l, hloose⟩ := isFolder_iff.1 h
  have hparent : t.needsNoParent path = true := by
    cases hneeds : t.needsNoParent path with
    | true => rfl
    | false =>
      have hreached : (t.lookLoosely path).IsReached := by
        rw [hloose]
        trivial
      rw [needsNoParent_of_isFolder (isFolder_of_reached hneeds hreached)] at hneeds
      cases hneeds
  unfold makeFolders
  rw [makeFoldersWithin_of_needsNoParent _ hparent, ensureFolder_of_isFolder h]

/-- Where the folders of a path could not be made, the path leads to no folder. -/
theorem isFolder_of_makeFoldersWithin {depth : Nat} {made : FileTree} {f : FileFault}
    (h : makeFoldersWithin depth t path = (made, some f)) : made.isFolder path = false := by
  induction depth generalizing path made f with
  | zero => exact isFolder_of_ensureFolder h
  | succ depth ih =>
    cases hneeds : t.needsNoParent path with
    | true =>
      rw [makeFoldersWithin_of_needsNoParent _ hneeds] at h
      exact isFolder_of_ensureFolder h
    | false =>
      rw [makeFoldersWithin_succ depth hneeds] at h
      dsimp only at h
      split at h
      · -- the fault is the parent's
        cases hfolder : made.isFolder path with
        | false => rfl
        | true =>
          obtain ⟨l, hloose⟩ := isFolder_iff.1 hfolder
          have hparent := isFolder_of_reached hneeds (by rw [hloose]; trivial)
          rw [ih h] at hparent
          cases hparent
      · split at h
        · cases h
        · exact isFolder_of_ensureFolder h

/-- What makes no folder, itself or above it, leaves the tree as it is. -/
theorem makeFoldersWithin_steady {depth : Nat}
    (habove : (makeFoldersWithin depth t (parentAndName path).1).1 = t)
    (hpath : (t.ensureFolder path).1 = t) : (makeFoldersWithin (depth + 1) t path).1 = t := by
  cases hneeds : t.needsNoParent path with
  | true => rw [makeFoldersWithin_of_needsNoParent _ hneeds, hpath]
  | false =>
    rw [makeFoldersWithin_succ depth hneeds]
    dsimp only
    split
    · exact habove
    · split
      · exact habove
      · rw [habove, hpath]

/-- Where the tree stays as it is no folder was made above. -/
theorem makeFoldersWithin_above {depth : Nat} (hneeds : t.needsNoParent path = false)
    (h : (makeFoldersWithin (depth + 1) t path).1 = t) :
    (makeFoldersWithin depth t (parentAndName path).1).1 = t := by
  have hfirst := grown_makeFoldersWithin depth t (parentAndName path).1
  rw [makeFoldersWithin_succ depth hneeds] at h
  cases habove : makeFoldersWithin depth t (parentAndName path).1 with
  | mk above fault =>
    rw [habove] at h hfirst
    dsimp only at h ⊢
    split at h
    · exact h
    · split at h
      · exact h
      · have hlater := grown_ensureFolder above path
        rw [h] at hlater
        exact hfirst.antisymm hlater

/-- What was tried below a parent that is there is tried there again. -/
theorem makeFoldersWithin_ensureFolder (depth : Nat) (h : t.needsNoParent path = true) :
    (makeFoldersWithin depth (t.ensureFolder path).1 path).1 = (t.ensureFolder path).1 := by
  obtain ⟨new, hgrown, -⟩ := grown_ensureFolder t path
  rw [makeFoldersWithin_of_needsNoParent _ (needsNoParent_of_keeps hgrown.keeps h),
    ensureFolder_ensureFolder]

/-- What was tried after its parent was made, if it was made, is tried again to no effect. -/
theorem makeFoldersWithin_again {u : FileTree} (depth : Nat) (hneeds : t.needsNoParent path = false)
    (habove : (makeFoldersWithin depth u (parentAndName path).1).1 = u) :
    (makeFoldersWithin (depth + 1) (u.ensureFolder path).1 path).1 = (u.ensureFolder path).1 := by
  by_cases hfree : ∃ l, u.lookLoosely path = .free l
  · obtain ⟨l, hfree⟩ := hfree
    have hparent := isFolder_of_reached hneeds (u := u) (by rw [hfree]; trivial)
    exact makeFoldersWithin_ensureFolder _ (needsNoParent_of_isFolder hparent)
  · have hsame := ensureFolder_of_not_free (not_exists.1 hfree)
    rw [hsame]
    exact makeFoldersWithin_steady habove hsame

theorem makeFoldersWithin_makeFoldersWithin (depth : Nat) (t : FileTree) (path : String) :
    (makeFoldersWithin depth (makeFoldersWithin depth t path).1 path).1 =
      (makeFoldersWithin depth t path).1 := by
  induction depth generalizing path with
  | zero => exact ensureFolder_ensureFolder t path
  | succ depth ih =>
    cases hneeds : t.needsNoParent path with
    | true =>
      rw [makeFoldersWithin_of_needsNoParent _ hneeds]
      exact makeFoldersWithin_ensureFolder _ hneeds
    | false =>
      rw [makeFoldersWithin_succ depth hneeds]
      cases habove : makeFoldersWithin depth t (parentAndName path).1 with
      | mk made fault =>
        have hmade := ih (parentAndName path).1
        rw [habove] at hmade
        dsimp only at hmade ⊢
        split
        · rename_i hfault
          -- the parent is no folder, so that nothing can be put below it
          obtain ⟨f, rfl, -⟩ := (Option.any_eq_true _ _).1 hfault
          refine makeFoldersWithin_steady hmade (ensureFolder_of_not_free ?_)
          intro l hfree
          have hparent := isFolder_of_reached hneeds (u := made) (by rw [hfree]; trivial)
          rw [isFolder_of_makeFoldersWithin habove] at hparent
          cases hparent
        · split
          · rename_i hdot
            exact makeFoldersWithin_steady hmade
              (ensureFolder_of_not_free (lookLoosely_dot hneeds hdot made))
          · exact makeFoldersWithin_again depth hneeds hmade

/-- Making the folders of a path once more adds nothing. -/
theorem makeFolders_makeFolders (t : FileTree) (path : String) :
    ((t.makeFolders path).1.makeFolders path).1 = (t.makeFolders path).1 :=
  makeFoldersWithin_makeFoldersWithin path.length t path

/-! ## Failing once more -/

/-- Below a parent that is no folder and cannot be made, nothing can be made. -/
theorem makeFoldersWithin_lost {u : FileTree} {depth : Nat} (hneeds : t.needsNoParent path = false)
    (hparent : u.isFolder (parentAndName path).1 = false)
    (habove : ∃ f, makeFoldersWithin depth u (parentAndName path).1 = (u, some f) ∧
      isExistence f = false) :
    ∃ f, makeFoldersWithin (depth + 1) u path = (u, some f) ∧ isExistence f = false := by
  cases hagain : u.needsNoParent path with
  | true =>
    rw [makeFoldersWithin_of_needsNoParent _ hagain]
    refine ensureFolder_lost fun hreached => ?_
    rw [isFolder_of_reached hneeds hreached] at hparent
    cases hparent
  | false =>
    obtain ⟨f, hf, hother⟩ := habove
    refine ⟨f, ?_, hother⟩
    rw [makeFoldersWithin_succ depth hagain, hf]
    simp [hother]

/-- Where a folder cannot be made, it cannot be made after its parents either. -/
theorem makeFoldersWithin_refused {depth : Nat} {f : FileFault}
    (hdot : (parentAndName path).2 ≠ ".") (hpath : t.ensureFolder path = (t, some f))
    (habove : (makeFoldersWithin depth t (parentAndName path).1).1 = t) :
    ∃ f', makeFoldersWithin (depth + 1) t path = (t, some f') ∧
      (isExistence f' = true → isExistence f = true) := by
  cases hneeds : t.needsNoParent path with
  | true => exact ⟨f, (makeFoldersWithin_of_needsNoParent _ hneeds).trans hpath, id⟩
  | false =>
    rw [makeFoldersWithin_succ depth hneeds]
    cases hfirst : makeFoldersWithin depth t (parentAndName path).1 with
    | mk above fault =>
      rw [hfirst] at habove
      obtain rfl : above = t := habove
      dsimp only
      split
      · rename_i hfault
        obtain ⟨f', rfl, hother⟩ := (Option.any_eq_true _ _).1 hfault
        exact ⟨f', rfl, fun heq => by simp [heq] at hother⟩
      · exact ⟨f, hpath, id⟩

/-- Folders that could not be made cannot be made on what was made of them.  That something is
there is said then only if it was said before. -/
theorem makeFoldersWithin_failed {depth : Nat} {made : FileTree} {f : FileFault}
    (h : makeFoldersWithin depth t path = (made, some f)) :
    ∃ f', makeFoldersWithin depth made path = (made, some f') ∧
      (isExistence f' = true → isExistence f = true) := by
  induction depth generalizing path made f with
  | zero =>
    obtain rfl := ensureFolder_unmade h
    exact ⟨f, h, id⟩
  | succ depth ih =>
    cases hneeds : t.needsNoParent path with
    | true =>
      rw [makeFoldersWithin_of_needsNoParent _ hneeds] at h
      obtain rfl := ensureFolder_unmade h
      exact ⟨f, (makeFoldersWithin_of_needsNoParent _ hneeds).trans h, id⟩
    | false =>
      rw [makeFoldersWithin_succ depth hneeds] at h
      have hmade := makeFoldersWithin_makeFoldersWithin depth t (parentAndName path).1
      cases habove : makeFoldersWithin depth t (parentAndName path).1 with
      | mk above fault =>
        rw [habove] at h hmade
        dsimp only at h hmade
        split at h
        · -- the fault is the parent's, and it comes again
          rename_i hfault
          cases h
          have hother : isExistence f = false := by simpa using hfault
          obtain ⟨f', hf', hkind⟩ := ih habove
          have hother' : isExistence f' = false :=
            Bool.eq_false_iff.2 fun heq => by simp [hkind heq] at hother
          obtain ⟨g, hg, hlost⟩ := makeFoldersWithin_lost hneeds
            (isFolder_of_makeFoldersWithin habove) ⟨f', hf', hother'⟩
          exact ⟨g, hg, fun heq => by simp [hlost] at heq⟩
        · split at h
          · cases h
          · rename_i hdot
            obtain rfl := ensureFolder_unmade h
            exact makeFoldersWithin_refused hdot h hmade

/-- Folders that could not be made cannot be made on what was made of them. -/
theorem makeFolders_failed {made : FileTree} {f : FileFault}
    (h : t.makeFolders path = (made, some f)) : ∃ f', made.makeFolders path = (made, some f') := by
  obtain ⟨f', hf', -⟩ := makeFoldersWithin_failed h
  exact ⟨f', hf'⟩

end FileTree

end ImageSizing
