import ImageSizing.Batch.Options
import ImageSizing.Proofs.Files.Extensions

/-!
# Formats of pictures to work on

A file is taken for a picture exactly if its extension is that of a format, so that what is worked
on can be written again in the format that it has:

    isSupported path ↔ ∃ out, forOutput path "keep" = .ok out         (isSupported_iff_forOutput)

This goes for chosen files and for what a folder lists, since a path has the extension of its last
part (`isSupported_of_gatherInputs`).
-/

namespace ImageSizing

namespace PictureFormat

/-- The supported extensions are those of the formats, with a dot in front. -/
theorem dot_mem_supported_iff {ext : String} :
    "." ++ ext ∈ Path.supportedExtensions ↔ ∃ f, ofExtension? ext = some f := by
  have hsupported : Path.supportedExtensions =
      ["jpg", "jpeg", "png", "webp", "bmp", "tiff"].map ("." ++ ·) := rfl
  have hinj : Function.Injective ("." ++ · : String → String) :=
    fun _ _ => (String.append_right_inj ".").1
  rw [hsupported, List.mem_map_of_injective hinj]
  constructor
  · intro hext
    have hall : ∀ ext ∈ ["jpg", "jpeg", "png", "webp", "bmp", "tiff"],
        (ofExtension? ext).isSome = true := by decide
    exact Option.isSome_iff_exists.1 (hall ext hext)
  · rintro ⟨f, hf⟩
    unfold ofExtension? at hf
    split at hf
    case h_7 => cases hf
    all_goals decide

end PictureFormat

namespace Path

theorem plainExtension_of_dotless {path written : String} (h : extension path = "." ++ written)
    (hdot : '.' ∉ written.toList) : plainExtension path = Text.lower written := by
  have hdrop : (extension path).toList.dropWhile (· == '.') = written.toList := by
    have hlist : ("." ++ written).toList = '.' :: written.toList := String.toList_append
    rw [h, hlist, List.dropWhile_cons_of_pos rfl]
    cases hwritten : written.toList with
    | nil => rfl
    | cons c cs =>
      refine List.dropWhile_cons_of_neg ?_
      rw [beq_iff_eq]
      rintro rfl
      exact hdot (hwritten ▸ List.mem_cons_self)
  unfold plainExtension
  rw [hdrop, String.ofList_toList]

/-- The two normal forms of an extension agree: without its dot in small letters, and in small
letters without its dot. -/
theorem lower_extension_cases (path : String) :
    (extension path = "" ∧ plainExtension path = "") ∨
      ∃ written, extension path = "." ++ written ∧ plainExtension path = Text.lower written ∧
        Text.lower (extension path) = "." ++ plainExtension path := by
  rcases extension_cases path with hnone | ⟨written, hext, hdot⟩
  · refine .inl ⟨hnone, ?_⟩
    unfold plainExtension
    rw [hnone]
    rfl
  · refine .inr ⟨written, hext, plainExtension_of_dotless hext hdot, ?_⟩
    rw [plainExtension_of_dotless hext hdot, hext, Text.lower_dot]

theorem isSupported_iff_ofExtension? (path : String) :
    isSupported path = true ↔ ∃ f, PictureFormat.ofExtension? (plainExtension path) = some f := by
  unfold isSupported
  rw [List.contains_iff_mem]
  rcases lower_extension_cases path with ⟨hnone, hplain⟩ | ⟨written, -, -, hlower⟩
  · rw [hnone, hplain]
    refine iff_of_false (by decide) ?_
    rintro ⟨f, ⟨⟩⟩
  · rw [hlower]
    exact PictureFormat.dot_mem_supported_iff

theorem isSupported_join (folder name : String) :
    isSupported (join folder name) = isSupported name := by
  unfold isSupported
  rw [extension_join]

end Path

namespace PictureFormat

variable {path : String}

theorem forOutput_keep_eq_ok_iff {ext : String} {f : PictureFormat} :
    forOutput path "keep" = .ok (ext, f) ↔
      ext = Path.plainExtension path ∧ ofExtension? (Path.plainExtension path) = some f := by
  unfold forOutput
  rw [if_pos rfl]
  dsimp only
  cases ofExtension? (Path.plainExtension path) with
  | none => simp
  | some g => simp [eq_comm]

theorem forOutput_keep_eq_error_iff {f : Fault} :
    forOutput path "keep" = .error f ↔
      Path.isSupported path = false ∧ f = .output (.unknownFormat (Path.plainExtension path)) := by
  rw [← Bool.not_eq_true, Path.isSupported_iff_ofExtension?]
  unfold forOutput
  rw [if_pos rfl]
  dsimp only
  cases ofExtension? (Path.plainExtension path) with
  | none => simp [eq_comm]
  | some g => simp

theorem forChoice_keep (path : String) : forChoice path (.str "keep") = forOutput path "keep" := rfl

/-- A format that is to be kept is unknown exactly for the paths that are not supported. -/
theorem forChoice_keep_eq_unknownFormat_iff {ext : String} :
    forChoice path (.str "keep") = .error (.output (.unknownFormat ext)) ↔
      Path.isSupported path = false ∧ ext = Path.plainExtension path := by
  rw [forChoice_keep, forOutput_keep_eq_error_iff, Fault.output.injEq, OutputFault.unknownFormat.injEq]

/-- The extension that is kept is the one of the path, in small letters and without its dot. -/
theorem extension_of_forOutput_keep {ext : String} {f : PictureFormat}
    (h : forOutput path "keep" = .ok (ext, f)) :
    ∃ written, Path.extension path = "." ++ written ∧ '.' ∉ written.toList ∧
      ext = Text.lower written := by
  obtain ⟨rfl, hformat⟩ := forOutput_keep_eq_ok_iff.1 h
  rcases Path.extension_cases path with hnone | ⟨written, hext, hdot⟩
  · unfold Path.plainExtension at hformat
    rw [hnone] at hformat
    cases hformat
  · exact ⟨written, hext, hdot, Path.plainExtension_of_dotless hext hdot⟩

theorem isSupported_iff_forOutput (path : String) :
    Path.isSupported path = true ↔ ∃ out, forOutput path "keep" = .ok out := by
  rw [Path.isSupported_iff_ofExtension?]
  constructor
  · rintro ⟨f, hf⟩
    exact ⟨_, forOutput_keep_eq_ok_iff.2 ⟨rfl, hf⟩⟩
  · rintro ⟨⟨ext, f⟩, hout⟩
    exact ⟨f, (forOutput_keep_eq_ok_iff.1 hout).2⟩

end PictureFormat

namespace FileTree

variable {t : FileTree} {paths : List String}

/-- Of chosen files those are worked on whose format can be kept. -/
theorem gatherInputs_of_files {files : List String} (hfiles : files ≠ []) (folder : Option String) :
    t.gatherInputs files folder =
      .ok (files.filter fun path => (PictureFormat.forOutput path "keep").isOk) := by
  have hsupported : ∀ path,
      Path.isSupported path = (PictureFormat.forOutput path "keep").isOk := by
    intro path
    rw [Bool.eq_iff_iff, PictureFormat.isSupported_iff_forOutput]
    cases PictureFormat.forOutput path "keep" with
    | ok out => exact iff_of_true ⟨out, rfl⟩ rfl
    | error f => exact iff_of_false nofun nofun
  unfold gatherInputs
  rw [if_neg (by rwa [List.isEmpty_iff]), List.filter_congr fun path _ => hsupported path]

theorem isSupported_of_listImages {folder : String} (h : t.listImages folder = .ok paths) :
    ∀ path ∈ paths, Path.isSupported path = true := by
  unfold listImages at h
  split at h
  · cases h
    intro path hpath
    rw [List.mem_mergeSort] at hpath
    obtain ⟨names, hnames, rfl⟩ := List.mem_map.1 hpath
    have hlisted : endsSupported names = true :=
      (Bool.and_eq_true_iff.1 (List.mem_filter.1 hnames).2).1
    unfold endsSupported at hlisted
    obtain ⟨name, hname, hsupported⟩ := (Option.any_eq_true _ _).1 hlisted
    obtain ⟨above, rfl⟩ := List.getLast?_eq_some_iff.1 hname
    rw [List.foldl_append]
    exact (Path.isSupported_join _ _).trans hsupported
  · cases h
  · cases h
    exact List.forall_mem_nil _

/-- Chosen files or a folder: what is worked on are supported pictures. -/
theorem isSupported_of_gatherInputs {files : List String} {folder : Option String}
    (h : t.gatherInputs files folder = .ok paths) : ∀ path ∈ paths, Path.isSupported path = true := by
  unfold gatherInputs at h
  split at h
  · split at h
    · split at h
      · cases h
        exact List.forall_mem_nil _
      · exact isSupported_of_listImages h
    · cases h
      exact List.forall_mem_nil _
  · cases h
    exact fun path hpath => (List.mem_filter.1 hpath).2

end FileTree

end ImageSizing
