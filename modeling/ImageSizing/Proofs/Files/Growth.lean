import ImageSizing.Files.Tree

/-!
# Growing trees

A tree grows when entries are put, one after the other, at locations that are free by then.
Growing appends the entries and moves nothing (`Grown.entries`): what was at a location
stays there (`Grown.keeps`), and a path that led to an entry still leads to it
(`look_found`).  A path that leads to a free location leads to what is put there
(`lookLoosely_free`).  Making folders grows a tree by folders (`grown_makeFolders`).
-/

namespace ImageSizing.FileTree

/-! ## Putting an entry -/

theorem at?_of_ne_nil (t : FileTree) {loc : Location} (h : loc ≠ []) :
    t.at? loc = (t.entries.find? fun e => e.1 == loc).map (·.2) := by
  unfold at?
  rw [if_neg (by simpa using h)]

theorem ne_nil_of_free {t : FileTree} {loc : Location} (h : t.at? loc = none) : loc ≠ [] := by
  rintro rfl
  cases h

/-- A location is free if and only if it is not empty and no entry has it. -/
theorem free_iff {t : FileTree} {loc : Location} :
    t.at? loc = none ↔ loc ≠ [] ∧ ∀ e ∈ t.entries, e.1 ≠ loc := by
  constructor
  · intro h
    have hne := ne_nil_of_free h
    rw [at?_of_ne_nil t hne, Option.map_eq_none_iff, List.find?_eq_none] at h
    refine ⟨hne, ?_⟩
    intro e he heq
    exact h e he (by simpa using heq)
  · rintro ⟨hne, hall⟩
    rw [at?_of_ne_nil t hne, Option.map_eq_none_iff, List.find?_eq_none]
    intro e he
    simpa using hall e he

theorem putEntry_append {loc : Location} (entry : Entry) {entries : List (Location × Entry)}
    (h : ∀ e ∈ entries, e.1 ≠ loc) : putEntry loc entry entries = entries ++ [(loc, entry)] := by
  induction entries with
  | nil => rfl
  | cons e rest ih =>
    unfold putEntry
    rw [if_neg (h e List.mem_cons_self), ih fun e' he' => h e' (List.mem_cons_of_mem e he')]
    rfl

/-- At a free location the entry comes to the end. -/
theorem entries_put {t : FileTree} {loc : Location} (h : t.at? loc = none) (entry : Entry) :
    (t.put loc entry).entries = t.entries ++ [(loc, entry)] :=
  putEntry_append entry (free_iff.1 h).2

theorem find?_putEntry (loc loc' : Location) (entry : Entry) (entries : List (Location × Entry)) :
    ((putEntry loc entry entries).find? fun e => e.1 == loc').map (·.2) =
      if loc' = loc then some entry else (entries.find? fun e => e.1 == loc').map (·.2) := by
  induction entries with
  | nil =>
    by_cases h : loc' = loc
    · simp [putEntry, h]
    · simp [putEntry, h, Ne.symm h]
  | cons e rest ih =>
    unfold putEntry
    by_cases hput : e.1 = loc
    · rw [if_pos hput]
      by_cases h : loc' = loc
      · simp [h]
      · have hne : (loc == loc') = false := by simpa using Ne.symm h
        have hold : (e.1 == loc') = false := by rw [hput, hne]
        rw [if_neg h, List.find?_cons, List.find?_cons, hne, hold]
    · rw [if_neg hput, List.find?_cons, List.find?_cons]
      cases h : e.1 == loc' with
      | true =>
        have hne : loc' ≠ loc := fun heq => hput ((beq_iff_eq.1 h).trans heq)
        rw [if_neg hne]
      | false => exact ih

/-- What is put at a location is there, and every other location is as it was. -/
theorem at?_put (t : FileTree) {loc : Location} (h : loc ≠ []) (entry : Entry) (loc' : Location) :
    (t.put loc entry).at? loc' = if loc' = loc then some entry else t.at? loc' := by
  by_cases hnil : loc' = []
  · rw [hnil, if_neg (Ne.symm h)]
    rfl
  · rw [at?_of_ne_nil _ hnil, at?_of_ne_nil _ hnil]
    exact find?_putEntry loc loc' entry t.entries

theorem at?_put_self {t : FileTree} {loc : Location} (h : t.at? loc = none) (entry : Entry) :
    (t.put loc entry).at? loc = some entry := by
  rw [at?_put t (ne_nil_of_free h), if_pos rfl]

theorem at?_put_of_ne {t : FileTree} {loc loc' : Location} (h : t.at? loc = none) (entry : Entry)
    (hne : loc' ≠ loc) : (t.put loc entry).at? loc' = t.at? loc' := by
  rw [at?_put t (ne_nil_of_free h), if_neg hne]

theorem at?_put_of_some {t : FileTree} {loc loc' : Location} {e : Entry} (h : t.at? loc = none)
    (entry : Entry) (he : t.at? loc' = some e) : (t.put loc entry).at? loc' = some e := by
  have hne : loc' ≠ loc := by
    rintro rfl
    rw [h] at he
    cases he
  rw [at?_put_of_ne h entry hne, he]

/-! ## Paths in trees that have more -/

/-- Every entry of one tree is where it was in another one. -/
structure Keeps (t u : FileTree) : Prop where
  working : u.working = t.working
  entries : ∀ loc e, t.at? loc = some e → u.at? loc = some e

theorem Keeps.refl (t : FileTree) : t.Keeps t := ⟨rfl, fun _ _ he => he⟩

theorem Keeps.trans {t u v : FileTree} (h : t.Keeps u) (h' : u.Keeps v) : t.Keeps v :=
  ⟨h'.working.trans h.working, fun loc e he => h'.entries loc e (h.entries loc e he)⟩

@[simp] theorem working_put (t : FileTree) (loc : Location) (entry : Entry) :
    (t.put loc entry).working = t.working := rfl

/-- What is put at a free location keeps the rest. -/
theorem keeps_put {t : FileTree} {loc : Location} (h : t.at? loc = none) (entry : Entry) :
    t.Keeps (t.put loc entry) := ⟨rfl, fun _ _ he => at?_put_of_some h entry he⟩

/-- Enters the entry of a name, if there is one. -/
def enter (t : FileTree) (loc : Location) (rest : List String) : Place :=
  match t.at? loc with
  | some next => t.lookFrom loc next rest
  | none => if rest.isEmpty then .free loc else .noFolder

theorem enter_eq_found_iff {t : FileTree} {loc l : Location} {e : Entry} {rest : List String} :
    t.enter loc rest = .found l e ↔
      ∃ next, t.at? loc = some next ∧ t.lookFrom loc next rest = .found l e := by
  unfold enter
  cases t.at? loc with
  | some next => simp
  | none =>
    constructor
    · intro h
      dsimp only at h
      split at h <;> cases h
    · rintro ⟨_, h, _⟩
      cases h

theorem enter_eq_free_iff {t : FileTree} {loc l : Location} {rest : List String} :
    t.enter loc rest = .free l ↔
      (∃ next, t.at? loc = some next ∧ t.lookFrom loc next rest = .free l) ∨
        (t.at? loc = none ∧ rest = [] ∧ l = loc) := by
  unfold enter
  cases t.at? loc with
  | some next => simp
  | none => cases rest <;> simp [eq_comm]

theorem lookFrom_cons_eq (t : FileTree) (loc : Location) (entry : Entry) (name : String)
    (rest : List String) :
    t.lookFrom loc entry (name :: rest) =
      if entry ≠ .folder then .belowFile
      else if name = "." then t.lookFrom loc .folder rest
      else if name = ".." then t.lookFrom loc.dropLast .folder rest
      else if nameLimit < name.utf8ByteSize then .tooLong
      else t.enter (loc ++ [name]) rest := rfl

/-- Nothing is below a file. -/
theorem lookFrom_below_file {entry : Entry} (hfile : entry ≠ .folder) (t : FileTree) (loc : Location)
    (name : String) (rest : List String) : t.lookFrom loc entry (name :: rest) = .belowFile := by
  rw [lookFrom_cons_eq, if_pos hfile]

/-- What is found from a file on is the file. -/
theorem eq_of_lookFrom_file {t : FileTree} {loc l : Location} {entry e : Entry} {names : List String}
    (hfile : entry ≠ .folder) (h : t.lookFrom loc entry names = .found l e) :
    names = [] ∧ loc = l ∧ entry = e := by
  cases names with
  | nil =>
    cases h
    exact ⟨rfl, rfl, rfl⟩
  | cons name rest =>
    rw [lookFrom_below_file hfile] at h
    cases h

/-- What a first name does in every tree: it moves to a folder, leads nowhere, or enters. -/
theorem lookFrom_cons (loc : Location) (entry : Entry) (name : String) :
    (∃ loc', ∀ (t : FileTree) (rest : List String),
      t.lookFrom loc entry (name :: rest) = t.lookFrom loc' .folder rest) ∨
    (∃ place, (∀ l e, place ≠ .found l e) ∧ (∀ l, place ≠ .free l) ∧
      ∀ (t : FileTree) (rest : List String), t.lookFrom loc entry (name :: rest) = place) ∨
    ∀ (t : FileTree) (rest : List String),
      t.lookFrom loc entry (name :: rest) = t.enter (loc ++ [name]) rest := by
  by_cases hfolder : entry ≠ .folder
  · refine .inr (.inl ⟨.belowFile, nofun, nofun, ?_⟩)
    intro t rest
    exact lookFrom_below_file hfolder t loc name rest
  by_cases hdot : name = "."
  · refine .inl ⟨loc, ?_⟩
    intro t rest
    rw [lookFrom_cons_eq, if_neg hfolder, if_pos hdot]
  by_cases hdots : name = ".."
  · refine .inl ⟨loc.dropLast, ?_⟩
    intro t rest
    rw [lookFrom_cons_eq, if_neg hfolder, if_neg hdot, if_pos hdots]
  by_cases hlong : nameLimit < name.utf8ByteSize
  · refine .inr (.inl ⟨.tooLong, nofun, nofun, ?_⟩)
    intro t rest
    rw [lookFrom_cons_eq, if_neg hfolder, if_neg hdot, if_neg hdots, if_pos hlong]
  · refine .inr (.inr ?_)
    intro t rest
    rw [lookFrom_cons_eq, if_neg hfolder, if_neg hdot, if_neg hdots, if_neg hlong]

theorem lookFrom_found {t u : FileTree} (hk : t.Keeps u) {names : List String} {loc l : Location}
    {entry e : Entry} (h : t.lookFrom loc entry names = .found l e) :
    u.lookFrom loc entry names = .found l e := by
  induction names generalizing loc entry with
  | nil => exact h
  | cons name rest ih =>
    rcases lookFrom_cons loc entry name with ⟨loc', hmove⟩ | ⟨place, hfound, _, hstuck⟩ | henter
    · rw [hmove] at h ⊢
      exact ih h
    · rw [hstuck] at h
      exact absurd h (hfound l e)
    · rw [henter, enter_eq_found_iff] at h ⊢
      obtain ⟨next, hat, hrest⟩ := h
      exact ⟨next, hk.entries _ _ hat, ih hrest⟩

/-- A free location is free, and it is where the path leads once something is there. -/
theorem lookFrom_free {t u : FileTree} (hk : t.Keeps u) {names : List String} {loc l : Location}
    {entry e : Entry} (h : t.lookFrom loc entry names = .free l) :
    t.at? l = none ∧ (u.at? l = some e → u.lookFrom loc entry names = .found l e) := by
  induction names generalizing loc entry with
  | nil => cases h
  | cons name rest ih =>
    rcases lookFrom_cons loc entry name with ⟨loc', hmove⟩ | ⟨place, _, hfree, hstuck⟩ | henter
    · rw [hmove] at h ⊢
      exact ih h
    · rw [hstuck] at h
      exact absurd h (hfree l)
    · rw [henter, enter_eq_free_iff] at h
      rw [henter, enter_eq_found_iff]
      rcases h with ⟨next, hat, hrest⟩ | ⟨hat, rfl, rfl⟩
      · obtain ⟨hl, hlater⟩ := ih hrest
        exact ⟨hl, fun hu => ⟨next, hk.entries _ _ hat, hlater hu⟩⟩
      · exact ⟨hat, fun hu => ⟨e, hu, rfl⟩⟩

/-! ## Loose and strict paths -/

theorem namesOf_congr {t u : FileTree} (h : u.working = t.working) (path : String) :
    u.namesOf path = t.namesOf path := by
  unfold namesOf
  rw [h]

/-- A path leads nowhere in every tree, or its names are followed in every tree. -/
theorem lookLoosely_cases (path : String) :
    (∃ place, (∀ l e, place ≠ .found l e) ∧ (∀ l, place ≠ .free l) ∧
      ∀ t : FileTree, t.lookLoosely path = place) ∨
    ∀ t : FileTree, t.lookLoosely path = t.lookFrom [] .folder (t.namesOf path) := by
  by_cases hnull : path.toList.contains '\x00' = true
  · refine .inl ⟨.nullCharacter, nofun, nofun, ?_⟩
    intro t
    unfold lookLoosely
    rw [if_pos hnull]
  by_cases hempty : path.isEmpty = true
  · refine .inl ⟨.noFolder, nofun, nofun, ?_⟩
    intro t
    unfold lookLoosely
    rw [if_neg hnull, if_pos hempty]
  by_cases hlong : pathLimit < path.utf8ByteSize
  · refine .inl ⟨.tooLong, nofun, nofun, ?_⟩
    intro t
    unfold lookLoosely
    rw [if_neg hnull, if_neg hempty, if_pos hlong]
  · refine .inr ?_
    intro t
    unfold lookLoosely
    rw [if_neg hnull, if_neg hempty, if_neg hlong]

theorem lookLoosely_found {t u : FileTree} (hk : t.Keeps u) {path : String} {l : Location} {e : Entry}
    (h : t.lookLoosely path = .found l e) : u.lookLoosely path = .found l e := by
  rcases lookLoosely_cases path with ⟨place, hfound, _, hstuck⟩ | hnames
  · rw [hstuck] at h
    exact absurd h (hfound l e)
  · rw [hnames] at h ⊢
    rw [namesOf_congr hk.working]
    exact lookFrom_found hk h

theorem lookLoosely_free {t u : FileTree} (hk : t.Keeps u) {path : String} {l : Location} {e : Entry}
    (h : t.lookLoosely path = .free l) :
    t.at? l = none ∧ (u.at? l = some e → u.lookLoosely path = .found l e) := by
  rcases lookLoosely_cases path with ⟨place, _, hfree, hstuck⟩ | hnames
  · rw [hstuck] at h
    exact absurd h (hfree l)
  · rw [hnames] at h ⊢
    rw [namesOf_congr hk.working]
    exact lookFrom_free hk h

theorem at?_of_free {t : FileTree} {path : String} {l : Location} (h : t.lookLoosely path = .free l) :
    t.at? l = none :=
  (lookLoosely_free (e := .folder) (.refl t) h).1

/-- A path leads to an entry if it does loosely, and to no file after a slash. -/
theorem look_eq_found_iff {t : FileTree} {path : String} {l : Location} {e : Entry} :
    t.look path = .found l e ↔
      t.lookLoosely path = .found l e ∧ (e = .folder ∨ Path.endsInSlash path = false) := by
  have hfile : ∀ (l' : Location) (e' : Entry), e' ≠ .folder →
      ¬(Place.found l' e' = .found l e ∧ (e = .folder ∨ true = false)) := by
    rintro l' e' hne ⟨h, hor⟩
    cases h
    rcases hor with h | h
    · exact hne h
    · cases h
  unfold look
  cases t.lookLoosely path with
  | found l' e' =>
    by_cases hfolder : e' = .folder
    · subst hfolder
      constructor
      · intro h
        cases h
        exact ⟨rfl, .inl rfl⟩
      · rintro ⟨h, _⟩
        exact h
    · cases hslash : Path.endsInSlash path with
      | false => cases e' <;> simp
      | true =>
        refine iff_of_false ?_ (hfile l' e' hfolder)
        cases e' with
        | folder => exact absurd rfl hfolder
        | _ => nofun
  | free l' => cases Path.endsInSlash path <;> simp
  | _ => simp

theorem look_found {t u : FileTree} (hk : t.Keeps u) {path : String} {l : Location} {e : Entry}
    (h : t.look path = .found l e) : u.look path = .found l e := by
  rw [look_eq_found_iff] at h ⊢
  exact ⟨lookLoosely_found hk h.1, h.2⟩

theorem hasPath_iff {t : FileTree} {path : String} :
    t.hasPath path = true ↔ ∃ l e, t.look path = .found l e := by
  unfold hasPath
  cases t.look path <;> simp

theorem isFolder_iff {t : FileTree} {path : String} :
    t.isFolder path = true ↔ ∃ l, t.lookLoosely path = .found l .folder := by
  unfold isFolder
  constructor
  · intro h
    split at h
    · rename_i l hlook
      exact ⟨l, (look_eq_found_iff.1 hlook).1⟩
    · cases h
  · rintro ⟨l, hloose⟩
    rw [look_eq_found_iff.2 ⟨hloose, .inl rfl⟩]

/-- A path that leads nowhere led nowhere in a tree with fewer entries. -/
theorem hasPath_of_keeps {t u : FileTree} (hk : t.Keeps u) {path : String}
    (h : u.hasPath path = false) : t.hasPath path = false := by
  cases ht : t.hasPath path with
  | false => rfl
  | true =>
    obtain ⟨l, e, hl⟩ := hasPath_iff.1 ht
    have hu : u.hasPath path = true := hasPath_iff.2 ⟨l, e, look_found hk hl⟩
    rw [h] at hu
    cases hu

/-! ## Growing -/

/-- One tree grows to another by some entries, each put at a location that is free by then. -/
inductive Grown : FileTree → List (Location × Entry) → FileTree → Prop
  | refl (t : FileTree) : Grown t [] t
  | put {t u : FileTree} {loc : Location} {entry : Entry} {new : List (Location × Entry)}
      (free : t.at? loc = none) (later : Grown (t.put loc entry) new u) :
      Grown t ((loc, entry) :: new) u

theorem Grown.trans {t u v : FileTree} {new new' : List (Location × Entry)} (h : Grown t new u)
    (h' : Grown u new' v) : Grown t (new ++ new') v := by
  induction h with
  | refl t => exact h'
  | put free later ih => exact .put free (ih h')

theorem Grown.entries {t u : FileTree} {new : List (Location × Entry)} (h : Grown t new u) :
    u.entries = t.entries ++ new := by
  induction h with
  | refl t => exact (List.append_nil _).symm
  | put free later ih =>
    rw [ih, entries_put free, List.append_assoc]
    rfl

theorem Grown.keeps {t u : FileTree} {new : List (Location × Entry)} (h : Grown t new u) :
    t.Keeps u := by
  induction h with
  | refl t => exact .refl t
  | put free later ih => exact (keeps_put free _).trans ih

theorem Grown.fresh {t u : FileTree} {new : List (Location × Entry)} (h : Grown t new u) :
    ∀ e ∈ new, t.at? e.1 = none ∧ u.at? e.1 = some e.2 := by
  induction h with
  | refl t => exact fun e he => by cases he
  | @put t u loc entry new free later ih =>
    intro e he
    rcases List.mem_cons.1 he with rfl | he
    · exact ⟨free, later.keeps.entries _ _ (at?_put_self free entry)⟩
    · obtain ⟨hfree, hput⟩ := ih e he
      refine ⟨?_, hput⟩
      cases hat : t.at? e.1 with
      | none => rfl
      | some x =>
        rw [at?_put_of_some free entry hat] at hfree
        cases hfree

/-- Where nothing was put, all is as it was. -/
theorem Grown.at?_eq {t u : FileTree} {new : List (Location × Entry)} (h : Grown t new u)
    {loc : Location} (hloc : ∀ e ∈ new, e.1 ≠ loc) : u.at? loc = t.at? loc := by
  induction h with
  | refl t => rfl
  | put free later ih =>
    rw [List.forall_mem_cons] at hloc
    rw [ih hloc.2, at?_put_of_ne free _ (Ne.symm hloc.1)]

/-- No location is used twice. -/
theorem Grown.nodup {t u : FileTree} {new : List (Location × Entry)} (h : Grown t new u) :
    (new.map Prod.fst).Nodup := by
  induction h with
  | refl t => exact List.nodup_nil
  | @put t u loc entry new free later ih =>
    rw [List.map_cons, List.nodup_cons]
    refine ⟨?_, ih⟩
    intro hmem
    obtain ⟨e, he, heq⟩ := List.mem_map.1 hmem
    have hfree := (later.fresh e he).1
    rw [heq, at?_put_self free entry] at hfree
    cases hfree

/-! ## Making folders -/

theorem grown_makeFolder {t made : FileTree} {path : String} (h : t.makeFolder path = .ok made) :
    ∃ loc, Grown t [(loc, .folder)] made := by
  unfold makeFolder at h
  cases hlook : t.lookLoosely path with
  | free loc =>
    rw [hlook] at h
    cases h
    have hfree := at?_of_free hlook
    exact ⟨loc, .put hfree (.refl _)⟩
  | _ =>
    rw [hlook] at h
    cases h

/-- A tree that has grown by folders only. -/
def GrownByFolders (t u : FileTree) : Prop := ∃ new, Grown t new u ∧ ∀ e ∈ new, e.2 = .folder

theorem GrownByFolders.refl (t : FileTree) : GrownByFolders t t :=
  ⟨[], .refl t, fun e he => by cases he⟩

theorem GrownByFolders.trans {t u v : FileTree} (h : GrownByFolders t u) (h' : GrownByFolders u v) :
    GrownByFolders t v := by
  obtain ⟨new, hg, hf⟩ := h
  obtain ⟨new', hg', hf'⟩ := h'
  refine ⟨new ++ new', hg.trans hg', ?_⟩
  intro e he
  rcases List.mem_append.1 he with he | he
  · exact hf e he
  · exact hf' e he

/-- Trees that have grown to each other are the same. -/
theorem GrownByFolders.antisymm {t u : FileTree} (h : GrownByFolders t u)
    (h' : GrownByFolders u t) : u = t := by
  obtain ⟨new, hgrown, -⟩ := h
  obtain ⟨new', hgrown', -⟩ := h'
  have hsame := hgrown'.entries
  rw [hgrown.entries, List.append_assoc, List.self_eq_append_right, List.append_eq_nil_iff] at hsame
  obtain ⟨rfl, -⟩ := hsame
  cases hgrown with
  | refl => rfl

theorem grown_ensureFolder (t : FileTree) (path : String) :
    GrownByFolders t (t.ensureFolder path).1 := by
  unfold ensureFolder
  cases hmake : t.makeFolder path with
  | ok made =>
    obtain ⟨loc, hg⟩ := grown_makeFolder hmake
    exact ⟨_, hg, fun e he => by rw [List.mem_singleton.1 he]⟩
  | error fault =>
    dsimp only
    split <;> exact .refl t

theorem grown_makeFoldersWithin (depth : Nat) (t : FileTree) (path : String) :
    GrownByFolders t (makeFoldersWithin depth t path).1 := by
  induction depth generalizing path with
  | zero => exact grown_ensureFolder t path
  | succ depth ih =>
    unfold makeFoldersWithin
    dsimp only
    split
    · exact grown_ensureFolder t path
    · split
      · exact ih _
      · split
        · exact ih _
        · exact (ih _).trans (grown_ensureFolder _ path)

/-- Making folders grows a tree by folders. -/
theorem grown_makeFolders (t : FileTree) (path : String) :
    GrownByFolders t (t.makeFolders path).1 :=
  grown_makeFoldersWithin path.length t path

end ImageSizing.FileTree
