import ImageSizing.Proofs.Batch.Effects
import ImageSizing.Proofs.Files.Listing
import ImageSizing.Proofs.Window.Selection

/-!
# Pressing preview and resize again

A selected folder is listed anew for every command.  A batch loses none of its files, and it
puts its outputs below the folder itself unless another place is chosen or a name leads away.
So the pictures that a command works on are those of the first command, with the outputs of
the batches since then sorted in, as far as these are new files below the folder with the
names of pictures (`presses_inputs`); they stay the same as long as no batch writes such a
file.
-/

namespace ImageSizing

/-! ## Files that a batch adds -/

/-- A tree becomes another one by gaining files, and some outputs account for them: each of the
files is one of the outputs, and each of the outputs is a file in the end. -/
def FileTree.GainsOutputs (t : FileTree) (outputs : List Saved) (u : FileTree) : Prop :=
  ∃ new, t.Gains new u ∧
    (∀ l ∈ new, ∃ saved ∈ outputs, u.LeadsToFile saved.destination l) ∧
    ∀ saved ∈ outputs, ∃ l, u.LeadsToFile saved.destination l

namespace FileTree

theorem GainsOutputs.of_gains {t u : FileTree} (h : t.Gains [] u) : t.GainsOutputs [] u :=
  ⟨[], h, List.forall_mem_nil _, List.forall_mem_nil _⟩

theorem GainsOutputs.trans {t u v : FileTree} {outputs outputs' : List Saved}
    (h : t.GainsOutputs outputs u) (h' : u.GainsOutputs outputs' v) :
    t.GainsOutputs (outputs ++ outputs') v := by
  obtain ⟨new, hgains, hnew, hfiles⟩ := h
  obtain ⟨new', hgains', hnew', hfiles'⟩ := h'
  refine ⟨new ++ new', hgains.trans hgains', ?_, ?_⟩
  · intro l hl
    rcases List.mem_append.1 hl with hl | hl
    · obtain ⟨saved, hsaved, hleads⟩ := hnew l hl
      exact ⟨saved, List.mem_append_left _ hsaved, hleads.keeps hgains'.kinds⟩
    · obtain ⟨saved, hsaved, hleads⟩ := hnew' l hl
      exact ⟨saved, List.mem_append_right _ hsaved, hleads⟩
  · intro saved hsaved
    rcases List.mem_append.1 hsaved with hsaved | hsaved
    · obtain ⟨l, hleads⟩ := hfiles saved hsaved
      exact ⟨l, hleads.keeps hgains'.kinds⟩
    · exact hfiles' saved hsaved

end FileTree

/-- A failed save adds no file if the library leaves nothing new. -/
theorem FileTree.savePicture_failed_gains {library : PictureLibrary}
    (hclean : library.LeavesNothingNew) {t after : FileTree} {path : String} {p : Picture}
    {format : PictureFormat} {quality : Option Int} {fault : FileFault}
    (h : t.savePicture library path p format quality = (after, some fault)) : t.Gains [] after := by
  have hsaves := saves_savePicture library t path p format quality
  rw [h] at hsaves
  cases hsaves with
  | refused place => exact .refl t
  | @failed loc f place encoded =>
    cases hat : t.at? loc with
    | none =>
      rw [Option.isNone_none, hclean _ _ _ _ encoded]
      exact .refl t
    | some e =>
      rcases leave_cases t loc (library.remnant (some e).isNone p format quality) with
        hsame | ⟨file, hfile, hput⟩
      · rw [hsame]
        exact .refl t
      · -- what is left is in the place of a file
        have hgains := gains_put (savePlace_eq_ok place).1 hfile
        rw [hat, if_neg (Option.some_ne_none e)] at hgains
        rw [hput]
        exact hgains

theorem Pair.attempt_failed_gains {library : PictureLibrary} (hclean : library.LeavesNothingNew)
    {t : FileTree} {e : Engine} {o : BatchOptions} {folder source : String} {size : Value}
    {known : Option RealDimension} {f : Failure}
    (h : (attempt library t e o folder source size known).result = .error f) :
    t.Gains [] (attempt library t e o folder source size known).tree := by
  have hattempts := attempts_attempt library t e o folder source size known
  generalize attempt library t e o folder source size known = a at h hattempts ⊢
  cases hattempts with
  | stopped => exact .refl t
  | @saved entries calls p picture q n planned opened ready =>
    rcases hsave : t.savePicture library p.destination q p.format n with ⟨after, _ | fault⟩
    · rw [hsave] at h
      cases h
    · exact FileTree.savePicture_failed_gains hclean hsave

namespace Batch

variable {b : Batch}

theorem attempt_gains {t : FileTree} {source : String} {size : Value}
    {known : Option RealDimension} {saved : Saved}
    (h : (b.attempt t source known size).result = .ok saved) :
    t.GainsOutputs [saved] (b.attempt t source known size).tree := by
  obtain ⟨loc, p, hfolder, hput, hlook, -⟩ := attempt_put h
  have hleads : (b.attempt t source known size).tree.LeadsToFile saved.destination loc :=
    ⟨.picture p, hlook, nofun⟩
  have hfile : Entry.picture p ≠ .folder := nofun
  have hgains := FileTree.gains_put hfolder hfile
  rw [← hput] at hgains
  refine ⟨_, hgains, ?_, List.forall_mem_singleton.2 ⟨loc, hleads⟩⟩
  intro l hl
  split at hl
  · rw [List.mem_singleton.1 hl]
    exact ⟨saved, List.mem_singleton_self saved, hleads⟩
  · cases hl

theorem attempt_failed_gains (hclean : b.library.LeavesNothingNew) {t : FileTree}
    {source : String} {size : Value} {known : Option RealDimension} {f : Failure}
    (h : (b.attempt t source known size).result = .error f) :
    t.Gains [] (b.attempt t source known size).tree := by
  cases hreal : realOf t source known with
  | error f' =>
    rw [attempt_unread hreal]
    exact .refl t
  | ok real =>
    rw [attempt_read hreal] at h ⊢
    exact Pair.attempt_failed_gains hclean h

theorem Worked.gains (hclean : b.library.LeavesNothingNew) {t u : FileTree} {rs : List Report}
    (h : Worked b t rs u) : t.GainsOutputs (rs.filterMap Report.saved?) u := by
  induction h with
  | done t => exact .of_gains (.refl t)
  | failed outcome now later ih =>
    rw [List.filterMap_cons_none (Report.saved?_of_error outcome)]
    exact (FileTree.GainsOutputs.of_gains (attempt_failed_gains hclean now)).trans ih
  | saved outcome now later ih =>
    rw [List.filterMap_cons_some (Report.saved?_of_ok outcome)]
    exact (attempt_gains now).trans ih

theorem run_gains (b : Batch) (hclean : b.library.LeavesNothingNew) (t : FileTree)
    (sources : List String) :
    t.GainsOutputs (b.run t sources).saved (b.run t sources).tree :=
  (FileTree.GainsOutputs.of_gains (FileTree.gains_of_folders (t.grown_makeFolders b.folder))).trans
    ((run_worked b t sources).gains hclean)

end Batch

namespace Session

/-! ## Presses -/

/-- A press of one of the two buttons that work on the pictures. -/
inductive Press where
  | preview
  | resize

def Press.event : Press → Event
  | preview => .preview
  | resize => .resize

def press (s : Session) (p : Press) : Session := (s.handle p.event).session

def afterPresses (s : Session) (presses : List Press) : Session := presses.foldl press s

/-- What a press writes. -/
def outputs (s : Session) : Press → List Saved
  | .preview => []
  | .resize =>
    match s.inputs with
    | .ok paths => if s.window.hasWork paths then (s.batchRun paths).saved else []
    | .error _ => []

/-- What some presses write. -/
def outputsOver (s : Session) : List Press → List Saved
  | [] => []
  | p :: rest => s.outputs p ++ (s.press p).outputsOver rest

theorem fields_press (s : Session) (p : Press) : (s.press p).window.fields = s.window.fields := by
  cases p with
  | preview => exact s.fields_preview
  | resize => exact s.fields_resize

theorem fields_afterPresses (s : Session) (presses : List Press) :
    (s.afterPresses presses).window.fields = s.window.fields := by
  induction presses generalizing s with
  | nil => rfl
  | cons p rest ih => exact (ih (s.press p)).trans (s.fields_press p)

theorem inputs_afterPresses (s : Session) (presses : List Press) :
    (s.afterPresses presses).inputs = s.window.inputs (s.afterPresses presses).tree :=
  Window.inputs_of_fields (s.fields_afterPresses presses) _

theorem library_press (s : Session) (p : Press) : (s.press p).library = s.library := by
  cases p with
  | preview => exact withInputs_keeps (P := fun s' => s'.library = s.library) rfl fun _ => rfl
  | resize => exact withInputs_keeps (P := fun s' => s'.library = s.library) rfl fun _ => rfl

/-- A press leads to a tree with the outputs that it writes. -/
theorem press_gains (s : Session) (hclean : s.library.LeavesNothingNew) (p : Press) :
    s.tree.GainsOutputs (s.outputs p) (s.press p).tree := by
  cases p with
  | preview =>
    have htree : (s.press .preview).tree = s.tree := s.tree_preview
    rw [htree]
    exact .of_gains (.refl s.tree)
  | resize =>
    unfold outputs inputs
    rcases s.withInputs_cases s.resizeAll with ⟨paths, hinputs, hwork, -⟩ | ⟨hnone, hidle⟩
    · have htree : (s.press .resize).tree = (s.batchRun paths).tree := (resize_of_work hinputs hwork).1
      rw [htree, hinputs]
      dsimp only
      rw [if_pos hwork]
      exact (s.batch paths).run_gains hclean s.tree paths
    · have hpress : s.press .resize = s := hidle
      rw [hpress]
      cases hinputs : s.window.inputs s.tree with
      | error f => exact .of_gains (.refl s.tree)
      | ok paths =>
        dsimp only
        rw [hnone paths hinputs, if_neg Bool.false_ne_true]
        exact .of_gains (.refl s.tree)

theorem presses_gains (s : Session) (hclean : s.library.LeavesNothingNew)
    (presses : List Press) :
    s.tree.GainsOutputs (s.outputsOver presses) (s.afterPresses presses).tree := by
  induction presses generalizing s with
  | nil => exact .of_gains (.refl s.tree)
  | cons p rest ih =>
    exact (s.press_gains hclean p).trans (ih (s.press p) (by rw [s.library_press p]; exact hclean))

/-- A press without pictures to work on does nothing. -/
theorem press_of_none {s : Session} (h : ∀ paths, s.inputs = .ok paths → paths = []) (p : Press) :
    s.press p = s := by
  have hidle : ∀ command, (s.withInputs command).session = s := by
    intro command
    rcases s.withInputs_cases command with ⟨paths, hinputs, hwork, -⟩ | ⟨-, hidle⟩
    · rw [h paths hinputs] at hwork
      cases hwork
    · exact hidle
  cases p with
  | preview => exact hidle s.previewOf
  | resize => exact hidle s.resizeAll

theorem afterPresses_of_none {s : Session} (h : ∀ paths, s.inputs = .ok paths → paths = [])
    (presses : List Press) : s.afterPresses presses = s := by
  induction presses with
  | nil => rfl
  | cons p rest ih =>
    unfold afterPresses
    rw [List.foldl_cons, press_of_none h p]
    exact ih

/-! ## Selected folders -/

/-- With a folder selected, the pictures of this folder are worked on. -/
theorem inputs_of_folder {s : Session} (hs : Reachable s) {folder : String}
    (hfolder : s.window.folder = some folder) (t : FileTree) :
    s.window.inputs t = if folder.isEmpty then .ok [] else t.listImages folder := by
  have hfiles : s.window.files = [] := by
    rcases hs.hasOneSelection with hnone | hfiles
    · rw [hnone] at hfolder
      cases hfolder
    · exact hfiles
  unfold Window.inputs FileTree.gatherInputs
  rw [hfiles, hfolder]
  rfl

theorem inputs_of_there {s : Session} (hs : Reachable s) {folder : String}
    (hfolder : s.window.folder = some folder) {t : FileTree} {base : Location}
    (hlook : t.look folder = .found base .folder) : s.window.inputs t = t.listImages folder := by
  rw [inputs_of_folder hs hfolder, FileTree.isEmpty_of_look hlook, if_neg Bool.false_ne_true]

/-- Files that a tree gains are worked on beside the pictures from before. -/
theorem inputs_of_gains {s : Session} (hs : Reachable s) {folder : String}
    (hfolder : s.window.folder = some folder) {t u : FileTree} {new : List Location}
    (hgains : t.Gains new u) {base : Location} (hlook : t.look folder = .found base .folder) :
    s.window.inputs u = (s.window.inputs t).map fun first =>
      (first ++ new.filterMap (FileTree.listedAs folder base)).mergeSort FileTree.byCodePoint := by
  rw [inputs_of_there hs hfolder (FileTree.look_folder hgains.kinds hlook),
    inputs_of_there hs hfolder hlook, hgains.listImages hlook]

/-- Without a folder at its path there is nothing to work on. -/
theorem inputs_of_not_there {s : Session} (hs : Reachable s) {folder : String}
    (hfolder : s.window.folder = some folder) {t : FileTree}
    (hlook : ∀ base, t.look folder ≠ .found base .folder) :
    ∀ paths, s.window.inputs t = .ok paths → paths = [] := by
  intro paths hpaths
  rw [inputs_of_folder hs hfolder] at hpaths
  split at hpaths
  · cases hpaths
    rfl
  · exact FileTree.listImages_of_no_folder hlook paths hpaths

/-- The pictures of a folder are sorted. -/
theorem sort_inputs {s : Session} (hs : Reachable s) {folder : String}
    (hfolder : s.window.folder = some folder) :
    s.inputs.map (fun first => (first ++ []).mergeSort FileTree.byCodePoint) = s.inputs := by
  by_cases hthere : ∃ base, s.tree.look folder = .found base .folder
  · obtain ⟨base, hlook⟩ := hthere
    -- a tree that gains nothing is listed as it is
    exact (inputs_of_gains hs hfolder (.refl s.tree) hlook).symm
  · have hnone := inputs_of_not_there hs hfolder fun base hlook => hthere ⟨base, hlook⟩
    unfold inputs
    cases hinputs : s.window.inputs s.tree with
    | error f => rfl
    | ok paths =>
      rw [hnone paths hinputs]
      exact congrArg Except.ok List.mergeSort_nil

/-- What some presses add to the pictures is made of their outputs. -/
theorem exists_added {s : Session} (hs : Reachable s) (hclean : s.library.LeavesNothingNew)
    {folder : String} (hfolder : s.window.folder = some folder) (presses : List Press) :
    ∃ added : List String,
      (s.afterPresses presses).inputs =
        s.inputs.map (fun first => (first ++ added).mergeSort FileTree.byCodePoint) ∧
      ∀ path ∈ added, ∃ saved ∈ s.outputsOver presses,
        (s.afterPresses presses).tree.Lists folder saved.destination path := by
  by_cases hthere : ∃ base, s.tree.look folder = .found base .folder
  · obtain ⟨base, hlook⟩ := hthere
    obtain ⟨new, hgains, hnew, -⟩ := s.presses_gains hclean presses
    refine ⟨new.filterMap (FileTree.listedAs folder base), ?_, ?_⟩
    · rw [inputs_afterPresses]
      exact inputs_of_gains hs hfolder hgains hlook
    · intro path hpath
      obtain ⟨l, hl, hlisted⟩ := List.mem_filterMap.1 hpath
      obtain ⟨saved, hsaved, hleads⟩ := hnew l hl
      exact ⟨saved, hsaved, base, l, FileTree.look_folder hgains.kinds hlook, hleads, hlisted⟩
  · have hnone : ∀ paths, s.inputs = .ok paths → paths = [] :=
      inputs_of_not_there hs hfolder fun base hlook => hthere ⟨base, hlook⟩
    rw [afterPresses_of_none hnone presses]
    exact ⟨[], (sort_inputs hs hfolder).symm, List.forall_mem_nil _⟩

/-- The pictures of a folder after some presses are those from before and some that were
added, provided that a failed save leaves nothing new.  What was added are outputs of these
presses, and all their outputs are among the pictures, as far as they are files that the folder
lists.  So nothing changes where none of the outputs is one. -/
theorem presses_inputs {s : Session} (hs : Reachable s) (hclean : s.library.LeavesNothingNew)
    {folder : String} (hfolder : s.window.folder = some folder) (presses : List Press) :
    ∃ added : List String,
      (s.afterPresses presses).inputs =
        s.inputs.map (fun first => (first ++ added).mergeSort FileTree.byCodePoint) ∧
      (∀ path ∈ added, ∃ saved ∈ s.outputsOver presses,
        (s.afterPresses presses).tree.Lists folder saved.destination path) ∧
      (∀ saved ∈ s.outputsOver presses, ∀ path,
        (s.afterPresses presses).tree.Lists folder saved.destination path →
          ∀ first, s.inputs = .ok first → path ∈ first ++ added) ∧
      ((∀ saved ∈ s.outputsOver presses, ∀ path,
        ¬(s.afterPresses presses).tree.Lists folder saved.destination path) →
          (s.afterPresses presses).inputs = s.inputs) := by
  obtain ⟨added, hinputs, hadded⟩ := exists_added hs hclean hfolder presses
  refine ⟨added, hinputs, hadded, ?_, ?_⟩
  · intro saved _ path hlists first hfirst
    obtain ⟨base, l, hlook, hleads, hlisted⟩ := hlists
    rw [hfirst, inputs_afterPresses, inputs_of_there hs hfolder hlook] at hinputs
    have hmem := FileTree.Lists.mem ⟨base, l, hlook, hleads, hlisted⟩ hinputs
    rwa [(List.mergeSort_perm _ _).mem_iff] at hmem
  · intro hnone
    have hnothing : added = [] := by
      rw [List.eq_nil_iff_forall_not_mem]
      intro path hpath
      obtain ⟨saved, hsaved, hlists⟩ := hadded path hpath
      exact hnone saved hsaved path hlists
    rw [hinputs, hnothing]
    exact sort_inputs hs hfolder

/-- A folder with one picture, selected to be resized to a half. -/
def pictures : Session :=
  (((({ tree := ⟨[(["in"], .folder), (["in", "a.png"], .picture ⟨4, 4, "RGB", .png, []⟩)], []⟩ } :
    Session).handle (.chooseFolder "in")).session).handle (.setSizes "50%")).session

theorem pictures_reachable : Reachable pictures :=
  .step (.setSizes "50%") (.step (.chooseFolder "in") (.start _ _ _))

theorem pictures_folder : pictures.window.folder = some "in" := rfl

theorem pictures_inputs : pictures.inputs = .ok ["in/a.png"] := by
  have hlook : pictures.tree.look "in" = .found ["in"] .folder := by decide +kernel
  unfold inputs
  rw [inputs_of_there pictures_reachable pictures_folder hlook]
  exact FileTree.listImages_of_sorted hlook (by decide +kernel) (by decide)

theorem pictures_inputs_resized :
    (pictures.press .resize).inputs = .ok ["in/a.png", "in/output/a-w50%.png"] := by
  have hlook : (pictures.press .resize).tree.look "in" = .found ["in"] .folder := by decide +kernel
  unfold inputs
  rw [Window.inputs_of_fields (pictures.fields_press .resize),
    inputs_of_there pictures_reachable pictures_folder hlook]
  exact FileTree.listImages_of_sorted hlook (by decide +kernel) (by decide +kernel)

/-- After a resize there are two pictures, and the new one is an output of the resize. -/
theorem presses_inputs_pictures :
    pictures.window.folder = some "in" ∧
    (pictures.afterPresses [.resize]).inputs = .ok ["in/a.png", "in/output/a-w50%.png"] ∧
    ∃ saved ∈ pictures.outputsOver [.resize],
      (pictures.afterPresses [.resize]).tree.Lists "in" saved.destination "in/output/a-w50%.png" := by
  obtain ⟨added, hadded, houtputs, -⟩ :=
    presses_inputs pictures_reachable PictureLibrary.failsClean_plain.leavesNothingNew
      pictures_folder [.resize]
  have hlist : (pictures.afterPresses [.resize]).inputs =
      .ok ["in/a.png", "in/output/a-w50%.png"] := pictures_inputs_resized
  refine ⟨pictures_folder, hlist, houtputs "in/output/a-w50%.png" ?_⟩
  rw [hlist, pictures_inputs] at hadded
  have hmem : "in/output/a-w50%.png" ∈ (["in/a.png"] ++ added).mergeSort FileTree.byCodePoint := by
    rw [← (Except.ok.inj hadded : _ = (["in/a.png"] ++ added).mergeSort FileTree.byCodePoint)]
    decide
  rw [(List.mergeSort_perm _ _).mem_iff] at hmem
  rcases List.mem_append.1 hmem with hmem | hmem
  · exact absurd hmem (by decide)
  · exact hmem

/-- The folder of the outputs is in the selected folder, and a second resize works on the output
of the first. -/
theorem outputs_picked_up :
    pictures.window.outputFolder = none ∧ pictures.inputs = .ok ["in/a.png"] ∧
    (pictures.press .resize).inputs = .ok ["in/a.png", "in/output/a-w50%.png"] ∧
    ((pictures.press .resize).batchRun ["in/a.png", "in/output/a-w50%.png"]).saved.map
      Saved.destination = ["in/output/a-w50%_2.png", "in/output/a-w50%-w50%.png"] ∧
    ¬∀ s : Session, Reachable s → ∀ folder, s.window.folder = some folder →
      s.window.outputFolder = none → ∀ presses, (s.afterPresses presses).inputs = s.inputs := by
  refine ⟨rfl, pictures_inputs, pictures_inputs_resized, by decide +kernel, ?_⟩
  intro hall
  have hsame := hall pictures pictures_reachable "in" pictures_folder rfl [.resize]
  have hlists := (pictures_inputs_resized.symm.trans hsame).trans pictures_inputs
  exact absurd (Except.ok.inj hlists) (by decide)

end Session

end ImageSizing
