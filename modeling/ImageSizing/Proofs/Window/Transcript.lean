import ImageSizing.Window.Preview

/-!
# What the lines of a preview tell

The lines of a preview are texts.  A `Transcript` has the same lines with what they are about
left in them, and the preview is its text (`ofPictures_shown`).  A line about a picture is
about one of the first of the selection, and a line about a size tells what this size
resolves to for the picture (`ofPictures_holds`).
-/

namespace ImageSizing.Preview

/-- A line of a preview: something that was logged, or what came of a picture or of a picture
at a size. -/
inductive Line where
  | logged (entry : LogEntry)
  | unreadable (path : String) (f : Failure)
  | resolved (path size : String) (real : RealDimension) (target : PixelSize)
  | unresolved (path size : String) (f : Failure)
deriving DecidableEq

def Line.text : Line → String
  | logged entry => entry.line
  | unreadable path f => unreadableLine path f
  | resolved path size real target => resolvedLine path size real target
  | unresolved path size f => unresolvedLine path size f

/-- The lines of a preview with what they are about, and the failure that cut them short, if
one did. -/
structure Transcript where
  lines : List Line
  failure : Option Failure

namespace Transcript

/-- The lines of one part and then those of the next, unless the first was cut short. -/
def andThen (x y : Transcript) : Transcript :=
  match x.failure with
  | some f => ⟨x.lines, some f⟩
  | none => ⟨x.lines ++ y.lines, y.failure⟩

def ofSize (e : Engine) (function path : String) (real : RealDimension) (size : String) :
    Transcript :=
  let r := resolve e function size real
  let log := r.entries.map Line.logged
  match r.result with
  | .ok target => ⟨log ++ [.resolved path size real target], none⟩
  | .error f => if f.isSizing then ⟨log ++ [.unresolved path size f], none⟩ else ⟨log, some f⟩

def ofPicture (t : FileTree) (e : Engine) (function : String) (sizes : List String)
    (path : String) : Transcript :=
  match t.probe path with
  | .error f => if f.isFromSystem then ⟨[.unreadable path f], none⟩ else ⟨[], some f⟩
  | .ok real => sizes.foldr (fun size rest => (ofSize e function path real size).andThen rest) ⟨[], none⟩

def ofPictures (t : FileTree) (e : Engine) (function : String) (sizes paths : List String) :
    Transcript :=
  (paths.take pictureLimit).foldr (fun path rest => (ofPicture t e function sizes path).andThen rest)
    ⟨[], none⟩

/-! ## The preview is the text of the transcript -/

def shown (x : Transcript) : Preview := ⟨x.lines.map Line.text, x.failure⟩

theorem andThen_shown (x y : Transcript) : (x.andThen y).shown = x.shown.andThen y.shown := by
  obtain ⟨lines, failure⟩ := x
  cases failure with
  | some f => rfl
  | none =>
    show (⟨(lines ++ y.lines).map Line.text, y.failure⟩ : Preview) = _
    rw [List.map_append]
    rfl

theorem foldr_shown {α : Type} (f : α → Transcript) (xs : List α) :
    (xs.foldr (fun x rest => (f x).andThen rest) ⟨[], none⟩).shown =
      xs.foldr (fun x rest => (f x).shown.andThen rest) empty := by
  induction xs with
  | nil => rfl
  | cons x rest ih => rw [List.foldr_cons, List.foldr_cons, andThen_shown, ih]

theorem ofSize_shown (e : Engine) (function path : String) (real : RealDimension) (size : String) :
    (ofSize e function path real size).shown = Preview.ofSize e function path real size := by
  have hlog : ∀ log : List LogEntry, (log.map Line.logged).map Line.text = log.map LogEntry.line :=
    fun log => by rw [List.map_map]; rfl
  unfold ofSize Preview.ofSize shown
  dsimp only
  cases (resolve e function size real).result with
  | ok target =>
    dsimp only
    rw [List.map_append, hlog]
    rfl
  | error f =>
    dsimp only
    by_cases hsizing : f.isSizing = true
    · rw [if_pos hsizing, if_pos hsizing, List.map_append, hlog]
      rfl
    · rw [if_neg hsizing, if_neg hsizing, hlog]

theorem ofPicture_shown (t : FileTree) (e : Engine) (function : String) (sizes : List String)
    (path : String) :
    (ofPicture t e function sizes path).shown = Preview.ofPicture t e function sizes path := by
  unfold ofPicture Preview.ofPicture
  cases t.probe path with
  | error f =>
    dsimp only
    split <;> rfl
  | ok real =>
    dsimp only
    rw [foldr_shown]
    simp only [ofSize_shown]

theorem ofPictures_shown (t : FileTree) (e : Engine) (function : String)
    (sizes paths : List String) :
    (ofPictures t e function sizes paths).shown = Preview.ofPictures t e function sizes paths := by
  unfold ofPictures Preview.ofPictures
  rw [foldr_shown]
  simp only [ofPicture_shown]

/-! ## The lines -/

theorem mem_andThen {x y : Transcript} {line : Line} (h : line ∈ (x.andThen y).lines) :
    line ∈ x.lines ∨ line ∈ y.lines := by
  unfold andThen at h
  split at h
  · exact .inl h
  · exact List.mem_append.1 h

/-- A line of a sequence of parts is a line of one of them. -/
theorem mem_foldr {α : Type} {f : α → Transcript} {xs : List α} {line : Line}
    (h : line ∈ (xs.foldr (fun x rest => (f x).andThen rest) ⟨[], none⟩).lines) :
    ∃ x ∈ xs, line ∈ (f x).lines := by
  induction xs with
  | nil => cases h
  | cons x rest ih =>
    rcases mem_andThen h with hfirst | hrest
    · exact ⟨x, List.mem_cons_self, hfirst⟩
    · obtain ⟨y, hy, hline⟩ := ih hrest
      exact ⟨y, List.mem_cons_of_mem x hy, hline⟩

end Transcript

/-- What a line tells: the picture is one of those that are previewed, and reading it or
resolving the size for it ends as the line says. -/
def Line.Holds (t : FileTree) (e : Engine) (function : String) (sizes paths : List String) :
    Line → Prop
  | logged _ => True
  | unreadable path f => path ∈ paths ∧ t.probe path = .error f
  | resolved path size real target => path ∈ paths ∧ size ∈ sizes ∧ t.probe path = .ok real ∧
      (resolve e function size real).result = .ok target
  | unresolved path size f => path ∈ paths ∧ size ∈ sizes ∧ f.isSizing = true ∧
      ∃ real, t.probe path = .ok real ∧ (resolve e function size real).result = .error f

namespace Transcript

variable {t : FileTree} {e : Engine} {function path size : String} {sizes paths : List String}
  {real : RealDimension}

theorem ofSize_holds (hpath : path ∈ paths) (hprobe : t.probe path = .ok real)
    (hsize : size ∈ sizes) :
    ∀ line ∈ (ofSize e function path real size).lines, line.Holds t e function sizes paths := by
  have hlog : ∀ line ∈ (resolve e function size real).entries.map Line.logged,
      line.Holds t e function sizes paths := by
    intro line hline
    obtain ⟨entry, -, rfl⟩ := List.mem_map.1 hline
    exact trivial
  intro line hline
  unfold ofSize at hline
  dsimp only at hline
  cases hresult : (resolve e function size real).result with
  | ok target =>
    rw [hresult] at hline
    rcases List.mem_append.1 hline with hline | hline
    · exact hlog line hline
    · rw [List.mem_singleton.1 hline]
      exact ⟨hpath, hsize, hprobe, hresult⟩
  | error f =>
    rw [hresult] at hline
    dsimp only at hline
    split at hline
    · rename_i hsizing
      rcases List.mem_append.1 hline with hline | hline
      · exact hlog line hline
      · rw [List.mem_singleton.1 hline]
        exact ⟨hpath, hsize, hsizing, real, hprobe, hresult⟩
    · exact hlog line hline

theorem ofPicture_holds (hpath : path ∈ paths) :
    ∀ line ∈ (ofPicture t e function sizes path).lines, line.Holds t e function sizes paths := by
  intro line hline
  unfold ofPicture at hline
  cases hprobe : t.probe path with
  | error f =>
    rw [hprobe] at hline
    dsimp only at hline
    split at hline
    · rw [List.mem_singleton.1 hline]
      exact ⟨hpath, hprobe⟩
    · cases hline
  | ok real =>
    rw [hprobe] at hline
    obtain ⟨size, hsize, hline⟩ := mem_foldr hline
    exact ofSize_holds hpath hprobe hsize line hline

/-- Every line of a preview is true of the tree and the engine. -/
theorem ofPictures_holds (t : FileTree) (e : Engine) (function : String)
    (sizes paths : List String) :
    ∀ line ∈ (ofPictures t e function sizes paths).lines,
      line.Holds t e function sizes (paths.take pictureLimit) := by
  intro line hline
  obtain ⟨path, hpath, hline⟩ := mem_foldr hline
  exact ofPicture_holds hpath line hline

end Transcript

end ImageSizing.Preview
