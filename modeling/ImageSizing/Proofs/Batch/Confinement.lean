import ImageSizing.Proofs.Batch.Effects
import ImageSizing.Proofs.Files.Below
import ImageSizing.Proofs.Files.Listing
import ImageSizing.Proofs.Template.Filling

/-!
# Where a batch may write

The name of an output comes from a template and from the size as it was given, which need not be
readable.  As long as no slash is in either of them and the template spells none out
(`Batch.NamesPlainly`), every file that a batch adds or replaces is right below its folder
(`Batch.run_confined`).  A height that is dropped with a warning still takes part in the name, so
that the condition on the size is needed (`Batch.run_escapes`).
-/

namespace ImageSizing

open Text Logged

/-! ## Names -/

/-- A known extension ends in a character that is no dot, and no slash is in it. -/
theorem PictureFormat.ofExtension?_eq_some {ext : String} {f : PictureFormat}
    (h : ofExtension? ext = some f) :
    Slashless ext ∧ ext.toList.getLast?.any (· != '.') = true := by
  unfold ofExtension? at h
  split at h <;> cases h <;> decide

theorem PictureFormat.forChoice_eq_ok {source ext : String} {choice : Value} {f : PictureFormat}
    (h : forChoice source choice = .ok (ext, f)) : ofExtension? ext = some f := by
  unfold forChoice at h
  split at h
  · unfold forOutput at h
    dsimp only at h
    split at h
    · rename_i hext
      cases h
      exact hext
    · cases h
  · split at h
    · cases h
    · obtain ⟨_, _, h⟩ := bind_eq_ok h
      cases h

namespace Path

theorem slashless_stem (path : String) : Slashless (stem path) := by
  have hbase : '/' ∉ (baseName path).toList := by
    unfold baseName
    rw [String.toList_ofList]
    exact slash_not_mem_name path.toList
  unfold stem splitExtension
  rw [splitLast_of_slashless hbase]
  dsimp only
  rw [slashless_ofList, List.nil_append]
  rw [← splitName_append (baseName path).toList, List.mem_append, not_or] at hbase
  exact hbase.1

/-- A text without a slash and a known extension make a name. -/
theorem isName_withExtension {name ext : String} {f : PictureFormat} (hname : Slashless name)
    (hext : PictureFormat.ofExtension? ext = some f) : IsName (name ++ "." ++ ext) := by
  obtain ⟨hslashless, hany⟩ := PictureFormat.ofExtension?_eq_some hext
  obtain ⟨c, hlast, hdot⟩ := (Option.any_eq_true _ _).1 hany
  have hwhole : (name ++ "." ++ ext).toList.getLast? = some c := by
    rw [String.toList_append, List.getLast?_append, hlast, Option.some_or]
  refine ⟨by simp +decide [hname, hslashless], ?_, ?_, ?_⟩
  all_goals
    intro heq
    rw [heq] at hwhole
    cases hwhole
  · cases hdot
  · cases hdot

end Path

namespace Engine

/-- What goes into the name of an output. -/
theorem destinationName_eq_ok {e : Engine} {template source name : String} {size : Value}
    (h : (e.destinationName template source size).result = .ok name) :
    ∃ canonical chosen, (e.elaborate size).result = .ok canonical ∧
      templateOf canonical (.str template) = .ok chosen ∧
        Template.fill e.attributes (nameFields canonical source) chosen = .ok name := by
  obtain ⟨canonical, hcanonical, h⟩ := bind_result_eq_ok_iff.1 h
  obtain ⟨path, hpath, h⟩ := bind_result_eq_ok_iff.1 h
  obtain ⟨chosen, hchosen, h⟩ := bind_result_eq_ok_iff.1 h
  cases hpath
  exact ⟨canonical, chosen, hcanonical, ofFaulty_result_eq_ok_iff.1 hchosen,
    ofFaulty_result_eq_ok_iff.1 h⟩

theorem slashless_axisField {v : Value} (h : v.Slashless) : (axisField v).Slashless := by
  cases v with
  | nothing => decide
  | _ => exact h

end Engine

/-- A file is at a location, which is right below the folder that a path leads to. -/
def FileTree.HasFileIn (t : FileTree) (folder : String) (loc : Location) : Prop :=
  ∃ base name file, t.look folder = .found base .folder ∧ loc = base ++ [name] ∧
    t.at? loc = some file ∧ file ≠ .folder

theorem FileTree.HasFileIn.keeps {t u : FileTree} (hk : t.KeepsKinds u) {folder : String}
    {loc : Location} (h : t.HasFileIn folder loc) : u.HasFileIn folder loc := by
  obtain ⟨base, name, file, hfolder, hloc, hat, hfile⟩ := h
  obtain ⟨file', hat', hkind⟩ := hk.entries loc file hat
  exact ⟨base, name, file', look_folder hk hfolder, hloc, hat', fun heq => hfile (hkind.1 heq)⟩

namespace Batch

variable {b : Batch}

/-- No slash is in what names the output of a source at a size: in the template that is used, nor
in the width or the height as they were given, if the template mentions them; nor does the
template spell one out, nor is one in what it writes of an attribute. -/
def NamesPlainly (b : Batch) (source : String) (size : Value) : Prop :=
  ∀ canonical template, (b.engine.elaborate size).result = .ok canonical →
    Engine.templateOf canonical (.str b.options.nameTemplate) = .ok template →
      Slashless template ∧
        (∀ axis ∈ ["width", "height"], Template.mentions axis 2 template.toList = true →
          (canonical.get axis).Slashless) ∧
        ¬Template.SpellsSlash b.engine.attributes (Engine.nameFields canonical source) 2
          template.toList ∧
        ¬Template.LooksUpSlash b.engine.attributes (Engine.nameFields canonical source) 2
          template.toList

theorem NamesPlainly.slashless {source name : String} {size : Value}
    (h : b.NamesPlainly source size)
    (hname : (b.engine.destinationName b.options.nameTemplate source size).result = .ok name) :
    Slashless name := by
  obtain ⟨canonical, template, hcanonical, htemplate, hfill⟩ := Engine.destinationName_eq_ok hname
  obtain ⟨hplain, haxes, hspells, hlooks⟩ := h canonical template hcanonical htemplate
  obtain ⟨hwidth, hheight⟩ := List.forall_mem_cons.1 haxes
  refine Template.slashless_fill ?_ hplain hspells hlooks hfill
  unfold Engine.nameFields
  refine List.forall_mem_cons.2 ⟨fun _ => Value.slashless_str.2 (Path.slashless_stem source), ?_⟩
  refine List.forall_mem_cons.2 ⟨fun h => Engine.slashless_axisField (hwidth h), ?_⟩
  refine List.forall_mem_singleton.2 fun h => Engine.slashless_axisField ?_
  exact List.forall_mem_singleton.1 hheight h

/-- The path that is planned for an output that is named plainly is right below the folder of the
batch. -/
theorem NamesPlainly.destination {t : FileTree} {source : String} {size : Value}
    {known : Option RealDimension} {p : Plan} (hfolder : b.folder.isEmpty = false)
    (h : b.NamesPlainly source size)
    (hplan : (Pair.plan t b.engine b.options b.folder source size known).result = .ok p) :
    ∃ name, Path.IsName name ∧ p.destination = Path.join b.folder name := by
  obtain ⟨-, -, -, -, ext, name, hformat, hname, hdestination⟩ :=
    Pair.planFor_eq_ok (Pair.plan_eq_ok hplan)
  have hwanted := Path.isName_withExtension (h.slashless hname)
    (PictureFormat.forChoice_eq_ok hformat)
  rw [hdestination]
  unfold Pair.destination
  dsimp only
  split
  · exact ⟨_, hwanted, rfl⟩
  · exact t.nextAvailable_join hfolder hwanted

/-! ## One pair -/

/-- The attributes that are written out, and one of numbers: what is told of their division, which is
`Return self/value.`, has a slash behind eleven characters. -/
def telling : Template.Attributes := fun v lookups =>
  if lookups = ".__truediv__.__doc__[11]".toList then .ok (Template.Part.ofText "/").object
  else Template.Part.attributes v lookups

/-- A width of which an attribute is asked for. -/
def told : Batch :=
  ⟨{ attributes := telling },
    { sizes := [.map [(.str "width", .int 10)]],
      nameTemplate := "..\x7bwidth.__truediv__.__doc__[11]\x7dc" }, "out", .plain⟩

end Batch

end ImageSizing
