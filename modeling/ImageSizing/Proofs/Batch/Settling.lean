import ImageSizing.Batch.Loop
import ImageSizing.Proofs.Batch.Effects

/-!
# One pair of the loop

What each part of the loop does to the ledger, by one equation for each.  The parts up to
`Batch.resize` come to what an attempt comes to (`resize_eq`), the real dimension is read at
most once (`realDimension_eq`), and `Batch.settle` counts every pair and reports it if it can
be told (`settle_eq`).
-/

namespace ImageSizing

namespace Work

variable {α β : Type} {l l' : Ledger}

theorem bind_ok {x : Work α} {a : α} (f : α → Work β) (h : x l = .ok a l') :
    (x >>= f) l = f a l' := by
  show EStateM.bind x f l = f a l'
  unfold EStateM.bind
  rw [h]

theorem bind_error {x : Work α} {e : Failure} (f : α → Work β) (h : x l = .error e l') :
    (x >>= f) l = .error e l' := by
  show EStateM.bind x f l = .error e l'
  unfold EStateM.bind
  rw [h]

theorem tryCatch_ok {x : Work α} {a : α} (f : Failure → Work α) (h : x l = .ok a l') :
    tryCatch x f l = .ok a l' := by
  show EStateM.tryCatch x f l = .ok a l'
  delta EStateM.tryCatch
  rw [h]

theorem tryCatch_error {x : Work α} {e : Failure} (f : Failure → Work α) (h : x l = .error e l') :
    tryCatch x f l = f e l' := by
  show EStateM.tryCatch x f l = f e l'
  delta EStateM.tryCatch
  rw [h]
  rfl

theorem compute_ok {f : FileTree → Logged α} {a : α} (h : (f l.tree).result = .ok a) :
    compute f l = .ok a (l.logged (f l.tree).entries) := by
  unfold compute
  rw [h]

theorem compute_error {f : FileTree → Logged α} {e : Failure} (h : (f l.tree).result = .error e) :
    compute f l = .error e (l.logged (f l.tree).entries) := by
  unfold compute
  rw [h]

theorem quietly_ok {f : FileTree → Except Failure α} {a : α} (h : f l.tree = .ok a) :
    quietly f l = .ok a l := by
  unfold quietly
  rw [h]

theorem quietly_error {f : FileTree → Except Failure α} {e : Failure} (h : f l.tree = .error e) :
    quietly f l = .error e l := by
  unfold quietly
  rw [h]

theorem finally_ok {x : Work α} {a : α} (g : Ledger → Ledger) (h : x l = .ok a l') :
    tryFinally x (modify g : Work Unit) l = .ok a (g l') := by
  simp only [tryFinally, tryFinally', Functor.map, EStateM.map, h]
  rfl

theorem finally_error {x : Work α} {e : Failure} (g : Ledger → Ledger) (h : x l = .error e l') :
    tryFinally x (modify g : Work Unit) l = .error e (g l') := by
  simp only [tryFinally, tryFinally', Functor.map, EStateM.map, h]
  rfl

/-- How a part of the program ends that came to something. -/
def ended {α : Type} : Except Failure α → Ledger → EStateM.Result Failure Ledger α
  | .ok a, l => .ok a l
  | .error f, l => .error f l

theorem quietly_eq (f : FileTree → Except Failure α) (l : Ledger) :
    quietly f l = ended (f l.tree) l := by
  unfold quietly
  cases f l.tree <;> rfl

@[simp] theorem get_bind (f : Ledger → Work α) : (get >>= f) l = f l l := rfl

@[simp] theorem modify_bind (g : Ledger → Ledger) (f : Unit → Work α) :
    (modify g >>= f) l = f () (g l) := rfl

end Work

namespace Ledger

@[simp] theorem logged_nil (l : Ledger) : l.logged [] = l := by
  simp [logged]

@[simp] theorem called_nil (l : Ledger) : l.called [] = l := by
  simp [called]

@[simp] theorem called_called (l : Ledger) (calls more : List RasterCall) :
    (l.called calls).called more = l.called (calls ++ more) := by
  simp [called]

@[simp] theorem tree_called (l : Ledger) (calls : List RasterCall) : (l.called calls).tree = l.tree :=
  rfl

@[simp] theorem tree_logged (l : Ledger) (entries : List LogEntry) :
    (l.logged entries).tree = l.tree := rfl

@[simp] theorem tree_knowing (l : Ledger) (known : Option RealDimension) :
    (l.knowing known).tree = l.tree := rfl

def after (l : Ledger) (a : Attempt) : Ledger :=
  ((l.logged a.entries).called a.calls).withTree a.tree

/-- An attempt that stops before it draws has a log and nothing else. -/
theorem after_stopped (l : Ledger) (entries : List LogEntry) (f : Failure) :
    l.after ⟨entries, [], l.tree, .error f⟩ = l.logged entries := by
  unfold after
  rw [called_nil]
  rfl

def drawn (l : Ledger) (d : Drawing) : Ledger := (l.called d.calls).withTree d.tree

theorem drawn_unopened (l : Ledger) (f : Failure) : l.drawn ⟨[], l.tree, .error f⟩ = l := by
  unfold drawn
  rw [called_nil]
  rfl

theorem called_drawn (l : Ledger) (calls : List RasterCall) (d : Drawing) :
    (l.called calls).drawn d = l.drawn { d with calls := calls ++ d.calls } := by
  unfold drawn
  rw [called_called]

end Ledger

/-- The result that a report is handed out as. -/
def Report.result (r : Report) : PairResult :=
  match r.outcome with
  | .ok s => .ofSaved r.source r.size s
  | .error f => .ofFailure r.source r.size f

/-- The ledger with a pair reported. -/
def Ledger.reported (l : Ledger) (r : Report) : Ledger :=
  { l with messages := l.messages ++ r.message?.toList,
           handouts := l.handouts ++ [⟨r.result, l.tree⟩] }

theorem Ledger.reported_of_ok (l : Ledger) {r : Report} {s : Saved} (h : r.outcome = .ok s) :
    l.reported r = l.handedOut (.ofSaved r.source r.size s) := by
  unfold reported Report.message? Report.result
  rw [h]
  simp [handedOut]

theorem Ledger.reported_of_error (l : Ledger) {r : Report} {f : Failure} (h : r.outcome = .error f) :
    l.reported r = (l.told ("[Error] " ++ Path.baseName r.source ++ " @ " ++ r.size.quoted ++ " -> "
      ++ f.message)).handedOut (.ofFailure r.source r.size f) := by
  unfold reported Report.message? Report.result
  rw [h]
  rfl

namespace Batch

open Work

variable {b : Batch}

/-! ## One pair -/

theorem save_eq (library : PictureLibrary) (path : String) (format : PictureFormat)
    (quality : Option Int) (p : Picture) (l : Ledger) :
    save library path format quality p l =
      let d := Drawing.save library l.tree p path format quality
      ended d.result (l.drawn d) := by
  unfold save
  rw [modify_bind, get_bind, modify_bind, quietly_eq]
  rfl

theorem render_eq (r : Rendering) (l : Ledger) :
    render r l =
      ended (r.result.mapError fun f => .fault (.file (.library f))) (l.called r.calls) := by
  unfold render
  rw [modify_bind, quietly_eq]

theorem render_ok {r : Rendering} {p : Picture} (h : r.result = .ok p) (l : Ledger) :
    render r l = .ok p (l.called r.calls) := by
  rw [render_eq, h]
  rfl

theorem render_error {r : Rendering} {f : ForeignFault} (h : r.result = .error f) (l : Ledger) :
    render r l = .error (.fault (.file (.library f))) (l.called r.calls) := by
  rw [render_eq, h]
  rfl

/-- One rendering after the other comes to the rendering of both. -/
theorem render_andThen (r : Rendering) (next : Picture → Rendering) (l : Ledger) :
    (do render (next (← render r)) : Work Picture) l = render (r.andThen next) l := by
  cases hresult : r.result with
  | error f =>
    rw [bind_error _ (render_error hresult l), Rendering.andThen_of_error hresult]
    rfl
  | ok p =>
    rw [bind_ok _ (render_ok hresult l), Rendering.andThen_of_ok hresult, render_eq, render_eq,
      Ledger.called_called]

/-- A picture is drawn as the drawing says. -/
theorem rasterize_eq (b : Batch) (source : String) (p : Plan) (l : Ledger) :
    b.rasterize source p l =
      let d := Pair.carryOut b.library l.tree source b.options.quality p
      ended d.result (l.drawn d) := by
  unfold rasterize Pair.carryOut
  cases hopen : l.tree.openPicture source with
  | error f =>
    rw [bind_error _ (quietly_error (by rw [hopen]; rfl)), Drawing.draw_unopened hopen]
    dsimp only
    rw [Ledger.drawn_unopened]
    rfl
  | ok picture =>
    have hrender := render_andThen (picture.scaled b.library p.target)
      (fun q => q.converted b.library p.format) l
    rw [bind_ok _ (quietly_ok (by rw [hopen]; rfl)), Drawing.draw_opened hopen, ← bind_assoc]
    cases hready : (picture.rendered b.library p.target p.format).result with
    | error f =>
      rw [bind_error _ (hrender.trans (render_error hready l)), Drawing.write_unready hready]
      rfl
    | ok q =>
      rw [bind_ok _ (hrender.trans (render_ok hready l))]
      cases hquality : Drawing.qualityFor p.format b.options.quality with
      | error f =>
        rw [bind_error _ (quietly_error (e := .fault f) rfl), Drawing.write_unencoded hready hquality]
        rfl
      | ok quality =>
        rw [bind_ok _ (quietly_ok (a := quality) rfl), Drawing.write_ready hready hquality, save_eq]
        dsimp only
        rw [Ledger.called_drawn]
        rfl

/-- Drawing one source at one size comes to what the attempt comes to. -/
theorem resize_eq (b : Batch) (source : String) (size : Value) (real : RealDimension) (l : Ledger) :
    b.resize source size real l =
      let a := Pair.attempt b.library l.tree b.engine b.options b.folder source size (some real)
      ended (a.result.map (.ofSaved source size)) (l.after a) := by
  unfold resize
  cases hplan : (Pair.plan l.tree b.engine b.options b.folder source size (some real)).result with
  | error f =>
    rw [bind_error _ (compute_error hplan), Pair.attempt_unplanned hplan]
    dsimp only
    rw [Ledger.after_stopped]
    rfl
  | ok p =>
    have hdrawn := rasterize_eq b source p
      (l.logged (Pair.plan l.tree b.engine b.options b.folder source size (some real)).entries)
    rw [bind_ok _ (compute_ok hplan), Pair.attempt_planned hplan]
    rw [Ledger.tree_logged] at hdrawn
    dsimp only at hdrawn
    cases hdraw : (Pair.carryOut b.library l.tree source b.options.quality p).result with
    | error f =>
      rw [hdraw] at hdrawn
      rw [bind_error _ hdrawn]
      rfl
    | ok done =>
      rw [hdraw] at hdrawn
      rw [bind_ok _ hdrawn]
      rfl

theorem realDimension_eq (source : String) (l : Ledger) :
    realDimension source l =
      match realOf l.tree source l.known with
      | .ok real => .ok real (l.knowing (some real))
      | .error f => .error f l := by
  unfold realDimension
  rw [get_bind]
  cases hknown : l.known with
  | some real =>
    show EStateM.Result.ok real l = .ok real (l.knowing (some real))
    rw [← hknown]
    rfl
  | none =>
    dsimp only [realOf]
    cases hprobe : l.tree.probe source with
    | error f => rw [bind_error _ (quietly_error hprobe)]
    | ok real =>
      rw [bind_ok _ (quietly_ok (f := fun t => t.probe source) hprobe), modify_bind]
      rfl

/-- The ledger after a pair of which nothing has been handed out yet. -/
def worked (b : Batch) (source : String) (size : Value) (l : Ledger) : Ledger :=
  (l.after (b.attempt l.tree source l.known size)).knowing (knownAfter l.tree source l.known)

theorem pair_eq (b : Batch) (source : String) (size : Value) (l : Ledger) :
    (do
      let result ← b.resize source size (← realDimension source)
      modify (·.handedOut result) : Work Unit) l =
      match (b.attempt l.tree source l.known size).result with
      | .ok s => .ok () ((b.worked source size l).handedOut (.ofSaved source size s))
      | .error f => .error f (b.worked source size l) := by
  unfold worked
  cases hreal : realOf l.tree source l.known with
  | error f =>
    have hkept : knownAfter l.tree source l.known = l.known :=
      (knownAfter_unread hreal).trans (realOf_eq_error_iff.1 hreal).1.symm
    rw [bind_error _ (by rw [realDimension_eq, hreal]), attempt_unread hreal, hkept,
      Ledger.after_stopped, Ledger.logged_nil]
    rfl
  | ok real =>
    have hresize := resize_eq b source size real (l.knowing (some real))
    dsimp only at hresize
    rw [Ledger.tree_knowing] at hresize
    rw [bind_ok _ (by rw [realDimension_eq, hreal]), attempt_read hreal, knownAfter_read hreal]
    cases hresult :
      (Pair.attempt b.library l.tree b.engine b.options b.folder source size (some real)).result with
    | error f =>
      rw [hresult] at hresize
      rw [bind_error _ hresize]
      rfl
    | ok done =>
      rw [hresult] at hresize
      rw [bind_ok _ hresize]
      rfl

/-- A failed pair is reported if its size has a text. -/
theorem reportFailure_eq (source : String) (size : Value) (f : Failure) (l : Ledger) :
    reportFailure source size f l =
      if size.printable then
        .ok () ((l.told ("[Error] " ++ Path.baseName source ++ " @ " ++ size.quoted ++ " -> "
          ++ f.message)).handedOut (.ofFailure source size f))
      else .error (.fault .numberTooLong) l := by
  unfold reportFailure
  by_cases hprint : size.printable = true
  · rw [bind_ok _ (quietly_ok (a := size.quoted) (by simp [Value.quoted?, hprint]; rfl)), if_pos hprint]
    rfl
  · rw [bind_error _ (quietly_error (e := .fault .numberTooLong)
      (by simp [Value.quoted?, hprint]; rfl)), if_neg hprint]

/-- Every pair is counted, and it is reported if it can be. -/
theorem settle_eq (b : Batch) (total : Nat) (source : String) (size : Value) (l : Ledger) :
    b.settle total source size l =
      if (report source size (b.attempt l.tree source l.known size)).isTellable then
        .ok () (((b.worked source size l).reported
          (report source size (b.attempt l.tree source l.known size))).ticked total)
      else .error (.fault .numberTooLong) ((b.worked source size l).ticked total) := by
  unfold settle
  have hpair := pair_eq b source size l
  cases hresult : (b.attempt l.tree source l.known size).result with
  | ok s =>
    have houtcome := outcome_report_of_ok source size hresult
    rw [hresult] at hpair
    rw [finally_ok _ (tryCatch_ok _ hpair), if_pos (Report.isTellable_of_ok houtcome),
      Ledger.reported_of_ok _ houtcome]
    rfl
  | error f =>
    have houtcome := outcome_report_of_error source size hresult
    rw [hresult] at hpair
    have hcaught := tryCatch_error (reportFailure source size) hpair
    rw [reportFailure_eq] at hcaught
    rw [Report.isTellable_of_error houtcome, Ledger.reported_of_error _ houtcome]
    by_cases hprint : size.printable = true
    · rw [if_pos hprint] at hcaught
      rw [finally_ok _ hcaught]
      exact (if_pos hprint).symm
    · rw [if_neg hprint] at hcaught
      rw [finally_error _ hcaught]
      exact (if_neg hprint).symm

end Batch

end ImageSizing
