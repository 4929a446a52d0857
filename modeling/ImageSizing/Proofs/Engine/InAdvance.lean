import ImageSizing.Proofs.Size.Recapture
import ImageSizing.Proofs.Engine.Elaboration

/-!
# Sizes prepared in advance

A size can be elaborated before it is normalized, and normalized before it is calculated.
Neither makes a difference: a raw size and its canonical form have the same normal form, with
the same warnings, and a normal form is normalized to itself without a word, so that a
calculation with it is the calculation with the size itself, the warnings of the normalization
aside (`normalize_in_advance`).  Elaborating what is elaborated already changes nothing either,
and a snapshot that was taken of a size is elaborated to what the size was
(`elaborate_idempotent`).
-/

namespace ImageSizing

namespace Size

/-- A raw size and its canonical form have the same normal form. -/
theorem normalize_canonical {cfg : EngineConfig} {raw : Value} {m : Mapping}
    (hraw : ∀ w h fs o x, raw ≠ .spec w h fs o x) (h : (canonical cfg raw).result = .ok m)
    (r : Registry) : normalize cfg r (.map m) = normalize cfg r raw := by
  have hnormal : normalize cfg r raw = normalizeCanonical cfg r m := by
    rw [normalize_of_not_spec hraw, canonical_eq_pure h, Logged.pure_bind]
    rfl
  have hunnested : raw.Unnested → normalize cfg r (.map m) = normalizeCanonical cfg r m := by
    intro hunnested
    show (canonical cfg (.map m) >>= fun m => normalizeCanonical cfg r m) = _
    rw [canonical_canonical_of_unnested hunnested h, Logged.pure_bind]
  rw [hnormal]
  cases raw with
  | spec w h' fs o x => exact absurd rfl (hraw w h' fs o x)
  -- a sequence stands as the width as it is, and its snapshot is never empty
  | list items =>
    refine normalize_settled (settled_canonical hraw h ?_) cfg r
    cases h
    rfl
  | tuple items =>
    refine normalize_settled (settled_canonical hraw h ?_) cfg r
    cases h
    rfl
  | _ => exact hunnested trivial

end Size

namespace Engine

/-- A calculation runs the queue of the normal form. -/
theorem calculate_eq_ok_normalize {e : Engine} {size : Value} {s : SizeSpec}
    (hs : (e.normalize size).result = .ok s) (real : RealDimension) :
    e.calculate size real =
      ⟨(e.normalize size).entries ++ (e.calculate s.toValue real).entries,
        (e.calculate s.toValue real).result⟩ := by
  have hself : e.normalize s.toValue = pure s := Size.normalize_toValue e.config e.registry s none
  unfold calculate calculateWith
  rw [Logged.bind_ok _ hs, hself, Logged.pure_bind]

/-- Elaborating a raw size in advance leaves its normal form and the warnings as they are, and
normalizing a size in advance leaves them as they are when it is normalized again, without any
further warning.  A calculation that starts from the normal form ends as the calculation that starts
from the size, and the log of the latter is that of the normalization and then that of the former. -/
theorem normalize_in_advance (e : Engine) (size : Value) :
    ((∀ w h fs o x, size ≠ .spec w h fs o x) →
      (e.elaborate size >>= fun m => e.normalize (.map m)) = e.normalize size) ∧
    ∀ s, (e.normalize size).result = .ok s →
      e.normalize s.toValue = pure s ∧
      ∀ real, (e.calculate size real).result = (e.calculate s.toValue real).result ∧
        (e.calculate size real).entries =
          (e.normalize size).entries ++ (e.calculate s.toValue real).entries := by
  refine ⟨?_, ?_⟩
  · intro hraw
    cases h : (e.elaborate size).result with
    | ok m =>
      have hpure : e.elaborate size = pure m := Size.canonical_eq_pure h
      rw [hpure, Logged.pure_bind]
      exact Size.normalize_canonical hraw h e.registry
    | error f =>
      have hnormal : e.normalize size =
          e.elaborate size >>= fun m => Size.normalizeCanonical e.config e.registry m :=
        Size.normalize_of_not_spec hraw e.config e.registry none
      rw [hnormal, Logged.bind_error _ h, Logged.bind_error _ h]
  · intro s hs
    refine ⟨Size.normalize_toValue e.config e.registry s none, fun real => ?_⟩
    rw [calculate_eq_ok_normalize hs real]
    exact ⟨rfl, rfl⟩

/-- Ten pixels wide, with a function that is known and one that is not. -/
def misnamed : Mapping :=
  [(.str "width", .dim .pixel (.int 10)), (.str "function", .list [.str "cover", .str "oops"])]

/-- Its normal form, with the default policy in the place of the unknown function. -/
def misnamedSpec : SizeSpec :=
  ⟨.pixel (.int 10), .unspecified, [.ofPolicy .cover, .ofPolicy .contain], misnamed, []⟩

/-- The unknown function is reported once, when the size is normalized, elaborated or not. -/
theorem normalize_in_advance_misnamed :
    let report : List LogEntry := [.warning (Size.unknownName .standard {} "oops")]
    (Engine.elaborate {} (.map misnamed) >>= fun m => Engine.normalize {} (.map m)) =
      ⟨report, .ok misnamedSpec⟩ ∧
    Engine.normalize {} misnamedSpec.toValue = pure misnamedSpec ∧
    ∀ real, (Engine.calculate {} (.map misnamed) real).result =
        (Engine.calculate {} misnamedSpec.toValue real).result ∧
      (Engine.calculate {} (.map misnamed) real).entries =
        report ++ (Engine.calculate {} misnamedSpec.toValue real).entries := by
  have hnormal : Engine.normalize {} (.map misnamed) =
      ⟨[.warning (Size.unknownName .standard {} "oops")], .ok misnamedSpec⟩ := rfl
  obtain ⟨helaborated, hagain⟩ := normalize_in_advance {} (.map misnamed)
  obtain ⟨hself, hreal⟩ := hagain misnamedSpec (by rw [hnormal])
  rw [hnormal] at helaborated hreal
  exact ⟨helaborated nofun, hself, hreal⟩

/-- Elaborating again changes nothing, for sizes of every shape but sequences.  A snapshot that a
mapping brings with it is kept; where a size brings none, or an empty one, the snapshot is all that
the canonical form has besides, and is itself elaborated to the same entries, in the same order
unless an empty snapshot stood among them. -/
theorem elaborate_idempotent {e : Engine} {size : Value} {m : Mapping} (hsize : size.Unnested)
    (hkeys : size.HasDistinctKeys) (h : (e.elaborate size).result = .ok m) :
    e.elaborate (.map m) = pure m ∧
    (∀ entries, size = .map entries → size.carriesSnapshot = true → m = Value.copyEntries entries) ∧
    (size.carriesSnapshot = false →
      m.get "original" = .map (m.erase "original") ∧
      ∃ m', e.elaborate (.map (m.erase "original")) = pure m' ∧ m'.Perm m ∧
        (size.LacksSnapshot → m' = m)) := by
  refine ⟨Size.canonical_canonical_of_unnested hsize h, ?_,
    fun hcarries => Size.canonical_snapshot hsize hkeys hcarries h⟩
  rintro entries rfl hcarries
  obtain ⟨c, hc, rfl⟩ := Size.canonical_eq_ok h
  have htruthy := (Size.isTruthy_original_entries hkeys hc).trans hcarries
  cases hc
  exact Size.withSnapshot_of_truthy htruthy

/-- A pair as the width, behind a snapshot that is empty. -/
def emptySnapshot : Mapping := [(.str "original", .map []), (.str "width", .tuple [.int 3, .int 4])]

/-- The empty snapshot is replaced in its place; elaborated by itself the new one stands at the end. -/
theorem elaborate_idempotent_emptySnapshot :
    let width : Value × Value := (.str "width", .list [.int 3, .int 4])
    let m : Mapping := [(.str "original", .map [width]), width]
    Engine.elaborate {} (.map emptySnapshot) = pure m ∧ Engine.elaborate {} (.map m) = pure m ∧
      Engine.elaborate {} (.map [width]) = pure [width, (.str "original", .map [width])] ∧
      [width, (.str "original", .map [width])].Perm m := by
  intro width m
  have hfirst : (Engine.elaborate {} (.map emptySnapshot)).result = .ok m := rfl
  have hunnested : (Value.map emptySnapshot).Unnested := trivial
  have hkeys : (Value.map emptySnapshot).HasDistinctKeys := List.pairwise_pair.2 rfl
  obtain ⟨hagain, -, hsnapshot⟩ := elaborate_idempotent hunnested hkeys hfirst
  obtain ⟨-, m', hm', hperm, -⟩ := hsnapshot rfl
  obtain rfl : m' = [width, (.str "original", .map [width])] :=
    (Except.ok.inj (congrArg Logged.result hm')).symm
  exact ⟨rfl, hagain, hm', hperm⟩

end Engine

end ImageSizing
