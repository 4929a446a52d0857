import ImageSizing.Files.Tree

/-!
# Putting entries twice

A tree into which some entries have been put stays as it is when the same entries are put
once more in the same order (`putAll_putAll`).  The second time every location is in use
already, so that nothing moves, and at each location the last entry decides both times.
-/

namespace ImageSizing.FileTree

def putAll (t : FileTree) (puts : List (Location × Entry)) : FileTree :=
  puts.foldl (fun t p => t.put p.1 p.2) t

theorem putAll_append (t : FileTree) (ps qs : List (Location × Entry)) :
    t.putAll (ps ++ qs) = (t.putAll ps).putAll qs := List.foldl_append

def locations (t : FileTree) : List Location := t.entries.map Prod.fst

/-! ## One entry -/

theorem mem_putEntry {loc loc' : Location} {entry : Entry} {entries : List (Location × Entry)} :
    loc' ∈ (putEntry loc entry entries).map Prod.fst ↔
      loc' = loc ∨ loc' ∈ entries.map Prod.fst := by
  induction entries with
  | nil => simp [putEntry]
  | cons e rest ih =>
    unfold putEntry
    by_cases h : e.1 = loc
    · simp [h]
    · simp [h, ih, or_left_comm]

theorem mem_locations_put {t : FileTree} {loc loc' : Location} {entry : Entry} :
    loc' ∈ (t.put loc entry).locations ↔ loc' = loc ∨ loc' ∈ t.locations := mem_putEntry

theorem putEntry_putEntry (loc : Location) (entry old : Entry) (entries : List (Location × Entry)) :
    putEntry loc entry (putEntry loc old entries) = putEntry loc entry entries := by
  induction entries with
  | nil => simp [putEntry]
  | cons e rest ih =>
    by_cases h : e.1 = loc
    · simp [putEntry, h]
    · simp [putEntry, h, ih]

/-- Of two entries at one location the later one stays. -/
theorem put_put (t : FileTree) (loc : Location) (entry old : Entry) :
    (t.put loc old).put loc entry = t.put loc entry :=
  congrArg (FileTree.mk · t.working) (putEntry_putEntry loc entry old t.entries)

theorem putEntry_comm {loc loc' : Location} (hne : loc ≠ loc') (entry entry' : Entry)
    {entries : List (Location × Entry)} (h : loc ∈ entries.map Prod.fst) :
    putEntry loc entry (putEntry loc' entry' entries) =
      putEntry loc' entry' (putEntry loc entry entries) := by
  induction entries with
  | nil => cases h
  | cons e rest ih =>
    by_cases hfirst : e.1 = loc
    · have hother : ¬e.1 = loc' := fun heq => hne (hfirst.symm.trans heq)
      simp [putEntry, hfirst, hne]
    · have hrest : loc ∈ rest.map Prod.fst := (List.mem_cons.1 h).resolve_left (Ne.symm hfirst)
      by_cases hother : e.1 = loc'
      · simp [putEntry, hother, Ne.symm hne]
      · simp [putEntry, hfirst, hother, ih hrest]

/-- What takes the place of another entry may be put before or after an entry elsewhere. -/
theorem put_comm {t : FileTree} {loc loc' : Location} (hne : loc ≠ loc') (h : loc ∈ t.locations)
    (entry entry' : Entry) :
    (t.put loc' entry').put loc entry = (t.put loc entry).put loc' entry' :=
  congrArg (FileTree.mk · t.working) (putEntry_comm hne entry entry' h)

/-! ## Many entries -/

variable {t : FileTree} {loc : Location} {puts : List (Location × Entry)}

theorem mem_locations_putAll (h : loc ∈ t.locations) (puts : List (Location × Entry)) :
    loc ∈ (t.putAll puts).locations := by
  induction puts generalizing t with
  | nil => exact h
  | cons p rest ih => exact ih (mem_locations_put.2 (.inr h))

/-- What is put at a location before another entry comes there makes no difference. -/
theorem putAll_put_of_mem (h : loc ∈ t.locations) (hputs : loc ∈ puts.map Prod.fst) (entry : Entry) :
    (t.put loc entry).putAll puts = t.putAll puts := by
  induction puts generalizing t with
  | nil => cases hputs
  | cons p rest ih =>
    show ((t.put loc entry).put p.1 p.2).putAll rest = (t.put p.1 p.2).putAll rest
    by_cases hfirst : loc = p.1
    · rw [hfirst, put_put]
    · have hrest : loc ∈ rest.map Prod.fst := (List.mem_cons.1 hputs).resolve_left hfirst
      rw [← put_comm hfirst h]
      exact ih (mem_locations_put.2 (.inr h)) hrest

/-- What is put at a location that nothing is put at later may be put last. -/
theorem putAll_put_of_notMem (h : loc ∈ t.locations) (hputs : loc ∉ puts.map Prod.fst)
    (entry : Entry) : (t.put loc entry).putAll puts = (t.putAll puts).put loc entry := by
  induction puts generalizing t with
  | nil => rfl
  | cons p rest ih =>
    obtain ⟨hfirst, hrest⟩ := not_or.1 (fun h => hputs (List.mem_cons.2 h))
    show ((t.put loc entry).put p.1 p.2).putAll rest = ((t.put p.1 p.2).putAll rest).put loc entry
    rw [← put_comm hfirst h]
    exact ih (mem_locations_put.2 (.inr h)) hrest

/-- Putting the same entries once more changes nothing. -/
theorem putAll_putAll (t : FileTree) (puts : List (Location × Entry)) :
    (t.putAll puts).putAll puts = t.putAll puts := by
  induction puts generalizing t with
  | nil => rfl
  | cons p rest ih =>
    obtain ⟨loc, entry⟩ := p
    have hfirst : loc ∈ (t.put loc entry).locations := mem_locations_put.2 (.inl rfl)
    show (((t.put loc entry).putAll rest).put loc entry).putAll rest = (t.put loc entry).putAll rest
    by_cases hlater : loc ∈ rest.map Prod.fst
    · rw [putAll_put_of_mem (mem_locations_putAll hfirst rest) hlater, ih]
    · -- the entry is there still, and putting it again does not change the tree
      rw [← putAll_put_of_notMem hfirst hlater, put_put, ih]

end ImageSizing.FileTree
