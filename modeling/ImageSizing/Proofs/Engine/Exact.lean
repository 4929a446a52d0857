import ImageSizing.Proofs.Dimension.Faults
import ImageSizing.Proofs.Engine.Box
import ImageSizing.Proofs.Number.HalfUp

/-!
# Exact sizes

A size that asks for both axes exactly gets the axes that it names, rounded to whole pixels.  For
whole axes that is no rounding at all, as long as the axes are doubles and one half can be added to
them (`RoundsRight`): all axes up to 2⁵² pixels come out as they were written.
-/

namespace ImageSizing

namespace Size

/-- Both axes as they are written. -/
def exactly (width height : Value) : Mapping :=
  [(.str "width", width), (.str "height", height), (.str "function", .str Policy.exact.name)]

end Size

namespace Dimension

/-- A whole number or a text that is read as that many pixels. -/
structure Spells (g : Grammar) (n : ℕ) (token : Value) : Prop where
  plain : token = .int n ∨ ∃ s, token = .str s
  read : Dimension.read g token = .ok (.pixel (.int n))

namespace Spells

variable {g : Grammar} {n : ℕ} {token : Value}

theorem isFinite (h : Spells g n token) : (Number.int n).isFinite = true := by
  have hready : isReady token = false := by
    rcases h.plain with rfl | ⟨s, rfl⟩ <;> rfl
  obtain ⟨v, hv, hfin⟩ := finite_of_read hready h.read
  cases v with
  | int k =>
    cases hv
    exact hfin
  | float x => cases hv

theorem printable (h : Spells g n token) : token.printable = true := by
  have hnumber : (Number.int n).printable = true := printable_of_isFinite h.isFinite
  rcases h.plain with rfl | ⟨s, rfl⟩
  · exact hnumber
  · rfl

end Spells

end Dimension

namespace Engine

open Binary64 Number Dimension

section

variable {e : Engine} {w h : ℕ} {width height : Value}

theorem printable_exactly (hw : width.printable = true) (hh : height.printable = true) :
    (Value.map (Size.exactly width height)).printable = true := by
  refine Value.printableEntries_iff.2 fun entry hentry => ?_
  simp only [Size.exactly, List.mem_cons, List.not_mem_nil, or_false] at hentry
  rcases hentry with rfl | rfl | rfl
  · exact ⟨rfl, hw⟩
  · exact ⟨rfl, hh⟩
  · exact ⟨rfl, rfl⟩

/-- Exact whole axes stay as they are until they are rounded. -/
theorem calculate_exactly (real : RealDimension) (hw : Spells e.config.grammar w width)
    (hh : Spells e.config.grammar h height) :
    e.calculate (.map (Size.exactly width height)) real =
      pure ⟨.pixel (.int w), .pixel (.int h), [], Size.exactly width height, []⟩ := by
  have hcanonical : Size.canonical e.config (.map (Size.exactly width height)) = pure
      (Mapping.insert "original" (.map (Size.exactly width height)) (Size.exactly width height)) := by
    rcases hw.plain with rfl | ⟨s, rfl⟩ <;> rcases hh.plain with rfl | ⟨t, rfl⟩ <;> rfl
  have hplain : (Value.map (Size.exactly width height)).isPlain = true := by
    rcases hw.plain with rfl | ⟨s, rfl⟩ <;> rcases hh.plain with rfl | ⟨t, rfl⟩ <;> rfl
  have hnormal : e.normalize (.map (Size.exactly width height)) =
      pure ⟨.pixel (.int w), .pixel (.int h), [.ofPolicy .exact], Size.exactly width height, []⟩ :=
    Size.normalize_policy hcanonical hw.read hh.read rfl rfl
  have hready : SizeSpec.Ready
      ⟨.pixel (.int w), .pixel (.int h), [.ofPolicy .exact], Size.exactly width height, []⟩ :=
    Size.ready_of_normalize hplain (printable_exactly hw.printable hh.printable)
      (congrArg Logged.result hnormal)
  let done : SizeSpec := ⟨.pixel (.int w), .pixel (.int h), [], Size.exactly width height, []⟩
  have happly : Policy.exact.apply done real = pure done :=
    (Scaling.exact_accepted ⟨hready.withQueue [], ⟨nofun, nofun, rfl⟩⟩ real).trans (if_pos rfl)
  obtain ⟨n, hn⟩ : ∃ n, e.config.maxSteps.steps = n + 1 :=
    Nat.exists_eq_succ_of_ne_zero (Nat.ne_of_gt e.config.maxSteps_pos)
  show (e.normalize _ >>= fun s =>
    e.drain (e.resolveAt e.nesting) real s.original e.config.maxSteps.steps s) = _
  rw [hnormal, Logged.pure_bind, hn]
  exact (drain_builtIn_pure (t := done) rfl rfl happly rfl n).trans (drain_nil rfl n)

/-- The pixels of a size that is taken exactly are its axes, rounded. -/
theorem exists_toPixels_exactly (real : RealDimension) (hw : Spells e.config.grammar w width)
    (hh : Spells e.config.grammar h height) :
    ∃ p : PixelSize, e.toPixels (.map (Size.exactly width height)) real = pure p ∧
      (Number.int w).roundHalfUp = .ok (p.width : ℤ) ∧ (Number.int h).roundHalfUp = .ok (p.height : ℤ) := by
  obtain ⟨m, hm⟩ := exists_roundHalfUp_natCast hw.isFinite
  obtain ⟨n, hn⟩ := exists_roundHalfUp_natCast hh.isFinite
  refine ⟨⟨m, n⟩, ?_, hm, hn⟩
  unfold toPixels
  rw [calculate_exactly real hw hh, Logged.pure_bind]
  exact pixelsOf_numbers rfl rfl hw.isFinite hm rfl hh.isFinite hn

/-- Every number with an exact value has one whole number that is half a one away at most, the upper
one of two, and it is rounded to that exactly if it is a double that does not carry over; a double
that does comes out one too large, and an integer that is no double comes out as the double next to
it or not at all.  So whole axes that are to be taken exactly come out as they are exactly if both
are rounded right, as up to 2⁵² all are. -/
theorem toPixels_exactly (e : Engine) (real : RealDimension) :
    (∀ {v : Number} {q : ℚ}, v.value? = some q →
      (∃! n, IsHalfUp q n) ∧
      (∀ n, IsHalfUp q n → (v.roundHalfUp = .ok n ↔ RoundsRight q) ∧
        (IsDouble q → CarriesOver q → v.roundHalfUp = .ok (n + 1))) ∧
      (¬IsDouble q → ∃ n : ℤ, v = .int n ∧ (v.roundHalfUp = .error .integerTooLarge ∨
        ∃ m : ℤ, m ≠ n ∧ (ofInt n).value? = some (m : ℚ) ∧ v.roundHalfUp = .ok m))) ∧
    ∀ {w h : ℕ} {width height : Value},
      Spells e.config.grammar w width → Spells e.config.grammar h height →
      ∃ p : PixelSize, e.toPixels (.map (Size.exactly width height)) real = pure p ∧
        (Number.int w).roundHalfUp = .ok (p.width : ℤ) ∧
        (Number.int h).roundHalfUp = .ok (p.height : ℤ) ∧
        (p = ⟨w, h⟩ ↔ RoundsRight w ∧ RoundsRight h) ∧ (w ≤ 2 ^ 52 → h ≤ 2 ^ 52 → p = ⟨w, h⟩) := by
  constructor
  · intro v q hq
    refine ⟨⟨round q, isHalfUp_iff.2 rfl, fun n => isHalfUp_iff.1⟩, fun n hn => ?_, fun hd => ?_⟩
    · obtain rfl := isHalfUp_iff.1 hn
      exact ⟨roundHalfUp_iff hq, fun hd => (roundHalfUp_of_isDouble hq hd).1⟩
    · obtain ⟨n, rfl, rfl⟩ := exists_int_of_not_isDouble hq hd
      exact ⟨n, rfl, roundHalfUp_of_not_isDouble hd⟩
  · intro w h width height hw hh
    obtain ⟨⟨m, n⟩, hp, hm, hn⟩ := exists_toPixels_exactly real hw hh
    have hkept : ∀ {k j : ℕ}, (Number.int k).roundHalfUp = .ok (j : ℤ) → (j = k ↔ RoundsRight k) := by
      intro k j hj
      have hiff := roundHalfUp_iff (v := .int k) (q := (k : ℤ)) rfl
      rw [hj, round_intCast, Except.ok.injEq, Nat.cast_inj] at hiff
      exact_mod_cast hiff
    have hboth : (⟨m, n⟩ : PixelSize) = ⟨w, h⟩ ↔ RoundsRight w ∧ RoundsRight h := by
      rw [PixelSize.mk.injEq, hkept hm, hkept hn]
    have hsmall : ∀ {k : ℕ}, k ≤ 2 ^ 52 → RoundsRight k := by
      intro k hk
      have hle : |(k : ℤ)| ≤ 2 ^ 52 := by
        rw [Nat.abs_cast]
        exact_mod_cast hk
      exact_mod_cast roundsRight_intCast hle
    exact ⟨⟨m, n⟩, hp, hm, hn, hboth, fun hw hh => hboth.2 ⟨hsmall hw, hsmall hh⟩⟩

/-- The last double below one half. -/
def lastBelowHalf : Binary64 := .finite false (unitsPerHalf - belowHalf) (by decide +kernel)

theorem value?_lastBelowHalf : lastBelowHalf.value? = some (1 / 2 - 1 / 2 ^ 54) := by
  have hlt := belowHalf_lt
  have hunits : ((unitsPerHalf - belowHalf : ℕ) : ℤ) + belowHalf = unitsPerHalf := by omega
  rw [← units_eq_below_half_iff.2 hunits]
  rfl

/-- Whole numbers of 53 digits are pixels. -/
theorem spells_whole {n : ℕ} (h : n < 2 ^ 53) : Spells EngineConfig.standard.grammar n (.int n) := by
  have hfin : (Number.int n).isFinite = true := Number.isFinite_natCast h
  have hprint : (Number.int n).printable = true := printable_of_isFinite hfin
  exact ⟨.inl rfl, read_natCast (by decide) hfin hprint⟩

/-- The last double below one half comes out as one, and where an odd width of 53 digits is asked
for the picture gets one pixel more. -/
theorem toPixels_exactly_carried :
    (Number.float lastBelowHalf).roundHalfUp = .ok 1 ∧
      ∃ p : PixelSize, Engine.toPixels {}
        (.map (Size.exactly (.int (2 ^ 52 + 1 : ℕ)) (.int (1 : ℕ)))) twentyByForty = pure p ∧
        p.width = 2 ^ 52 + 2 ∧ p.height = 1 := by
  have hround : IsHalfUp (1 / 2 - 1 / 2 ^ 54) 0 := ⟨by norm_num, by norm_num⟩
  have hodd : CarriesOver ((2 ^ 52 + 1 : ℤ) : ℚ) := by
    rw [carriesOver_intCast_iff]
    decide
  have hdouble : IsDouble ((2 ^ 52 + 1 : ℤ) : ℚ) := by
    rw [isDouble_intCast_iff]
    decide +kernel
  have hlast : (Number.float lastBelowHalf).value? = some (1 / 2 - 1 / 2 ^ 54) := value?_lastBelowHalf
  have hwide : (Number.int (2 ^ 52 + 1)).value? = some ((2 ^ 52 + 1 : ℤ) : ℚ) := rfl
  have hone : (Number.int 1).value? = some ((1 : ℤ) : ℚ) := rfl
  have hright : RoundsRight ((1 : ℤ) : ℚ) := roundsRight_intCast (by decide)
  obtain ⟨hnumbers, hpixels⟩ := toPixels_exactly {} twentyByForty
  refine ⟨((hnumbers hlast).2.1 0 hround).2 ⟨_, value?_lastBelowHalf⟩ (.inl rfl), ?_⟩
  obtain ⟨p, hp, hwidth, hheight, -⟩ := hpixels (spells_whole (n := 2 ^ 52 + 1) (by decide))
    (spells_whole (n := 1) (by decide))
  have hcarried := ((hnumbers hwide).2.1 _ (isHalfUp_intCast _)).2 hdouble hodd
  have hkept := ((hnumbers hone).2.1 _ (isHalfUp_intCast _)).1.2 hright
  refine ⟨p, hp, ?_, ?_⟩
  · exact_mod_cast Except.ok.inj (hwidth.symm.trans hcarried)
  · exact_mod_cast Except.ok.inj (hheight.symm.trans hkept)

end

end Engine

end ImageSizing
