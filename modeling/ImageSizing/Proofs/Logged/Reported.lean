import ImageSizing.Logged

/-!
# Reported errors

A computation reports its sizing errors if a line for one is written exactly when it fails
with one (`Reports`): nothing else writes such a line, and nothing is written after it.  A
sequence of parts that report reports (`Reports.bind`), because the log of a sequence ends
with the first part that fails.  `Disciplined` says the same of a log as its reader sees it.
-/

namespace ImageSizing.Logged

variable {α β : Type}

/-- No line of a log is about an error. -/
def Quiet (entries : List LogEntry) : Prop := ∀ l ∈ entries, l.isError = false

/-- The last line of a log, and no other one, is about an error, and begins with its text. -/
def EndsIn (err : SizingError) (entries : List LogEntry) : Prop :=
  ∃ before rest, entries = before ++ [.error (err.message ++ rest)] ∧ Quiet before

/-- A computation writes the line for a sizing error exactly where it fails with one. -/
def Reports (x : Logged α) : Prop :=
  match x.result with
  | .error (.sizing err) => EndsIn err x.entries
  | _ => Quiet x.entries

theorem quiet_nil : Quiet [] := nofun

theorem Quiet.append {l l' : List LogEntry} (h : Quiet l) (h' : Quiet l') : Quiet (l ++ l') := by
  intro e he
  rcases List.mem_append.1 he with he | he
  · exact h e he
  · exact h' e he

theorem EndsIn.after {l l' : List LogEntry} {err : SizingError} (h : Quiet l) (h' : EndsIn err l') :
    EndsIn err (l ++ l') := by
  obtain ⟨before, rest, rfl, hbefore⟩ := h'
  exact ⟨l ++ before, rest, (List.append_assoc _ _ _).symm, h.append hbefore⟩

/-! ## Parts -/

theorem Reports.quiet {x : Logged α} {a : α} (hx : x.Reports) (h : x.result = .ok a) :
    Quiet x.entries := by
  unfold Reports at hx
  rw [h] at hx
  exact hx

theorem reports_pure (a : α) : (pure a : Logged α).Reports := quiet_nil

theorem reports_fault (f : Fault) : (fail (.fault f) : Logged α).Reports := quiet_nil

theorem reports_warn (text : String) : (warn text).Reports := by
  intro l hl
  cases List.mem_singleton.1 hl
  rfl

theorem reports_fatal (err : SizingError) : (fatal err : Logged α).Reports :=
  ⟨[], "", by rw [String.append_empty]; rfl, quiet_nil⟩

theorem reports_ofFaulty (x : Except Fault α) : (ofFaulty x).Reports := by
  cases x with
  | ok a => exact quiet_nil
  | error f => exact quiet_nil

/-- What fails with faults only has nothing to report. -/
theorem reports_ofExcept {x : Except Failure α} (h : ∀ err, x ≠ .error (.sizing err)) :
    (ofExcept x).Reports := by
  cases x with
  | ok a => exact quiet_nil
  | error f =>
    cases f with
    | sizing err => exact absurd rfl (h err)
    | fault f => exact quiet_nil

/-- The second part is looked at only where the first one has returned, and so has not written
about an error. -/
theorem Reports.bind {x : Logged α} {f : α → Logged β} (hx : x.Reports)
    (hf : ∀ a, x.result = .ok a → (f a).Reports) : (x >>= f).Reports := by
  cases hr : x.result with
  | error e =>
    rw [bind_error f hr]
    unfold Reports at hx ⊢
    rw [hr] at hx
    cases e with
    | sizing err => exact hx
    | fault f => exact hx
  | ok a =>
    rw [bind_ok f hr]
    have hquiet := hx.quiet hr
    have hlater := hf a hr
    unfold Reports at hlater ⊢
    cases hfr : (f a).result with
    | ok b =>
      rw [hfr] at hlater
      exact hquiet.append hlater
    | error e =>
      rw [hfr] at hlater
      cases e with
      | sizing err => exact .after hquiet hlater
      | fault f => exact hquiet.append hlater

/-! ## Logs -/

/-- A sizing error ends a computation exactly if the log has a line about an error; then it is
the only such line and the last line of all, and begins with the text of the error.  A
computation that returns has written no such line. -/
structure Disciplined (x : Logged α) : Prop where
  failed_iff : (∃ err, x.result = .error (.sizing err)) ↔ ∃ l ∈ x.entries, l.isError = true
  last : ∀ err, x.result = .error (.sizing err) →
    ∃ before rest, x.entries = before ++ [.error (err.message ++ rest)] ∧
      ∀ l ∈ before, l.isError = false
  returned : ∀ a, x.result = .ok a → ∀ l ∈ x.entries, l.isError = false

theorem Reports.disciplined {x : Logged α} (hx : x.Reports) : x.Disciplined := by
  have hlast : ∀ err, x.result = .error (.sizing err) → EndsIn err x.entries := by
    intro err h
    unfold Reports at hx
    rw [h] at hx
    exact hx
  refine ⟨⟨?_, ?_⟩, hlast, fun a h => hx.quiet h⟩
  · rintro ⟨err, h⟩
    obtain ⟨before, rest, he, _⟩ := hlast err h
    exact ⟨.error (err.message ++ rest), by rw [he]; simp, rfl⟩
  · rintro ⟨l, hl, herror⟩
    have hnoisy : ¬Quiet x.entries := fun hq => by
      rw [hq l hl] at herror
      cases herror
    unfold Reports at hx
    cases hr : x.result with
    | ok a =>
      rw [hr] at hx
      exact absurd hx hnoisy
    | error e =>
      rw [hr] at hx
      cases e with
      | sizing err => exact ⟨err, rfl⟩
      | fault f => exact absurd hx hnoisy

end ImageSizing.Logged
