import Mathlib.Data.List.Nodup
import ImageSizing.Proofs.Files.Growth
import ImageSizing.Proofs.Text.Slashless

/-!
# Free names

The numbered forms of a path differ in their last names only, and there no two of them
agree.  A tree can hold as many of them as it has entries, so that a search which goes on
until it finds a free one comes to an end (`FileTree.Search`), and one more attempt than the
entries is as good as no bound:

    firstFree path attempts n = numbered path m       where the search from n ends at m   (firstFree_eq)

Nothing is ever there at an available path (`nextAvailable_free`), and its number is the least
that is free (`nextAvailable_first`).
-/

namespace ImageSizing

namespace Path

/-! ## Splitting paths and names -/

theorem not_mem_takeWhile_ne (c : Char) (cs : List Char) : c ∉ cs.takeWhile (· != c) := by
  intro hmem
  have hne := List.all_takeWhile (p := fun x => x != c) (l := cs)
  rw [List.all_eq_true] at hne
  simpa using hne c hmem

/-- What remains of a text once a character is searched for starts with that character. -/
theorem eq_of_dropWhile_ne {c d : Char} {cs before : List Char}
    (h : cs.dropWhile (· != c) = d :: before) : d = c := by
  have hhead := List.head?_dropWhile_not (fun x => x != c) cs
  rw [h] at hhead
  simpa using hhead

/-- What follows the last slash has no slash. -/
theorem slash_not_mem_name (cs : List Char) : '/' ∉ (splitLast cs).2 := by
  intro hmem
  exact not_mem_takeWhile_ne '/' cs.reverse (List.mem_reverse.1 hmem)

/-- What stands before a file name is empty or ends in a slash. -/
theorem folder_eq_nil_or_append_slash (cs : List Char) :
    (splitLast cs).1 = [] ∨ ∃ ds, (splitLast cs).1 = ds ++ ['/'] := by
  show (cs.reverse.dropWhile (· != '/')).reverse = [] ∨ _
  cases hdrop : cs.reverse.dropWhile (· != '/') with
  | nil => exact .inl rfl
  | cons c before =>
    refine .inr ⟨before.reverse, ?_⟩
    show (cs.reverse.dropWhile (· != '/')).reverse = _
    rw [hdrop, eq_of_dropWhile_ne hdrop, List.reverse_cons]

/-- A name is its stem and its extension. -/
theorem splitName_append (name : List Char) : (splitName name).1 ++ (splitName name).2 = name := by
  unfold splitName
  dsimp only
  cases hdrop : name.reverse.dropWhile (· != '.') with
  | nil => exact List.append_nil name
  | cons c before =>
    dsimp only
    split
    · exact List.append_nil name
    · have hwhole := List.takeWhile_append_dropWhile (p := fun x => x != '.') (l := name.reverse)
      rw [hdrop, eq_of_dropWhile_ne hdrop] at hwhole
      have hback := congrArg List.reverse hwhole
      rw [List.reverse_append, List.reverse_cons, List.reverse_reverse, List.append_assoc] at hback
      exact hback

/-! ## The parts of a path -/

theorem foldr_step_name {name : List Char} (hslash : '/' ∉ name) (ps : List String) :
    name.foldr parts.step ([], ps) = (name, ps) := by
  induction name with
  | nil => rfl
  | cons c rest ih =>
    rw [List.mem_cons, not_or] at hslash
    rw [List.foldr_cons, ih hslash.2]
    unfold parts.step
    rw [if_neg (Ne.symm hslash.1)]

theorem foldr_step_append (cs name : List Char) (ps qs : List String) :
    cs.foldr parts.step (name, ps ++ qs) =
      ((cs.foldr parts.step (name, ps)).1, (cs.foldr parts.step (name, ps)).2 ++ qs) := by
  induction cs with
  | nil => rfl
  | cons c rest ih =>
    rw [List.foldr_cons, List.foldr_cons, ih]
    unfold parts.step
    dsimp only
    split
    · split <;> rfl
    · rfl

/-- A name is a path of one part. -/
theorem parts_name {name : List Char} (hne : name ≠ []) (hslash : '/' ∉ name) :
    parts (String.ofList name) = [String.ofList name] := by
  unfold parts parts.go
  rw [String.toList_ofList, foldr_step_name hslash]
  show (if name.isEmpty then [] else [String.ofList name]) = _
  rw [if_neg (by simpa using hne)]

/-- A name after a slash is one more part. -/
theorem parts_append_slash (ds : List Char) {name : List Char} (hne : name ≠ [])
    (hslash : '/' ∉ name) :
    parts (String.ofList (ds ++ '/' :: name)) =
      parts (String.ofList ds) ++ [String.ofList name] := by
  unfold parts parts.go
  have hlast : ('/' :: name).foldr parts.step ([], []) = ([], [] ++ [String.ofList name]) := by
    rw [List.foldr_cons, foldr_step_name hslash]
    unfold parts.step
    rw [if_pos rfl, if_neg (by simpa using hne)]
    rfl
  rw [String.toList_ofList, String.toList_ofList, List.foldr_append, hlast, foldr_step_append]
  dsimp only
  split <;> rfl

end Path

namespace FileTree

/-! ## Numbered paths -/

def numberedName (path : String) (n : Nat) : List Char :=
  (Path.splitName (Path.splitLast path.toList).2).1 ++
    '_' :: (Numeral.digitsOf n ++ (Path.splitName (Path.splitLast path.toList).2).2)

theorem numbered_eq (path : String) (n : Nat) :
    numbered path n = String.ofList ((Path.splitLast path.toList).1 ++ numberedName path n) := by
  unfold numbered Path.splitExtension numberedName Numeral.text
  rw [if_neg (by omega), Int.natAbs_natCast, ← String.toList_inj]
  simp

/-- No two numbers give one name. -/
theorem numberedName_inj {path : String} {m n : Nat}
    (h : numberedName path m = numberedName path n) : m = n := by
  unfold numberedName at h
  have htail := List.append_cancel_left h
  rw [List.cons.injEq] at htail
  have hdigits : Nat.toDigits 10 m = Nat.toDigits 10 n := List.append_cancel_right htail.2
  calc
    m = Nat.ofDigitChars 10 (Nat.toDigits 10 m) 0 := Nat.ofDigitChars_ten_toDigits.symm
    _ = Nat.ofDigitChars 10 (Nat.toDigits 10 n) 0 := by rw [hdigits]
    _ = n := Nat.ofDigitChars_ten_toDigits

theorem underscore_mem_numberedName (path : String) (n : Nat) : '_' ∈ numberedName path n :=
  List.mem_append_right _ List.mem_cons_self

theorem numberedName_ne (path : String) (n : Nat) (name : List Char) (h : '_' ∉ name) :
    String.ofList (numberedName path n) ≠ String.ofList name := by
  intro heq
  rw [String.ofList_inj] at heq
  exact h (heq ▸ underscore_mem_numberedName path n)

theorem slash_not_mem_numberedName (path : String) (n : Nat) : '/' ∉ numberedName path n := by
  have hname := Path.slash_not_mem_name path.toList
  rw [← Path.splitName_append (Path.splitLast path.toList).2, List.mem_append, not_or] at hname
  have hdigits := Numeral.slash_not_mem_digitsOf n
  unfold numberedName
  rw [List.mem_append, List.mem_cons, List.mem_append]
  rintro (h | h | h | h)
  · exact hname.1 h
  · exact absurd h (by decide)
  · exact hdigits h
  · exact hname.2 h

/-- Numbered paths differ in their last parts only. -/
theorem parts_numbered (path : String) : ∃ above, ∀ n,
    Path.parts (numbered path n) = above ++ [String.ofList (numberedName path n)] := by
  have hne : ∀ n, numberedName path n ≠ [] :=
    fun n => List.ne_nil_of_mem (underscore_mem_numberedName path n)
  rcases Path.folder_eq_nil_or_append_slash path.toList with hnone | ⟨ds, hfolder⟩
  · refine ⟨[], ?_⟩
    intro n
    rw [numbered_eq, hnone, List.nil_append, List.nil_append]
    exact Path.parts_name (hne n) (slash_not_mem_numberedName path n)
  · refine ⟨Path.parts (String.ofList ds), ?_⟩
    intro n
    rw [numbered_eq, hfolder, List.append_assoc]
    exact Path.parts_append_slash ds (hne n) (slash_not_mem_numberedName path n)

/-- The names that are followed for a numbered path end in its last name. -/
theorem namesOf_numbered (t : FileTree) (path : String) (n : Nat) : ∃ above,
    t.namesOf (numbered path n) = above ++ [String.ofList (numberedName path n)] := by
  obtain ⟨above, hparts⟩ := parts_numbered path
  unfold namesOf
  rw [hparts n]
  split
  · exact ⟨above, rfl⟩
  · exact ⟨t.working ++ above, (List.append_assoc ..).symm⟩

/-! ## The entries that numbered paths lead to -/

/-- What a path to a proper name leads to is an entry of that name, in the folder that the rest of
the path leads to. -/
theorem lookFrom_named {t : FileTree} {name : String} (hdot : name ≠ ".") (hdots : name ≠ "..")
    {above : List String} {loc l : Location} {entry e : Entry}
    (h : t.lookFrom loc entry (above ++ [name]) = .found l e) :
    ∃ base, t.lookFrom loc entry above = .found base .folder ∧ l = base ++ [name] ∧
      t.at? l = some e := by
  induction above generalizing loc entry with
  | nil =>
    rw [List.nil_append, lookFrom_cons_eq, if_neg hdot, if_neg hdots] at h
    split at h
    · cases h
    · rename_i hfolder
      obtain rfl : entry = .folder := Decidable.byContradiction hfolder
      split at h
      · cases h
      · obtain ⟨next, hat, hlast⟩ := enter_eq_found_iff.1 h
        cases hlast
        exact ⟨loc, rfl, rfl, hat⟩
  | cons first above ih =>
    rw [List.cons_append] at h
    rcases lookFrom_cons loc entry first with ⟨loc', hmove⟩ | ⟨place, hfound, _, hstuck⟩ | henter
    · rw [hmove] at h ⊢
      exact ih h
    · rw [hstuck] at h
      exact absurd h (hfound l e)
    · rw [henter] at h ⊢
      obtain ⟨next, hnext, hrest⟩ := enter_eq_found_iff.1 h
      obtain ⟨base, habove, hl⟩ := ih hrest
      exact ⟨base, enter_eq_found_iff.2 ⟨next, hnext, habove⟩, hl⟩

/-- A numbered path that leads somewhere leads to an entry of its last name. -/
theorem exists_entry_of_hasPath_numbered {t : FileTree} {path : String} {n : Nat}
    (h : t.hasPath (numbered path n) = true) :
    ∃ x ∈ t.entries, x.1.getLast? = some (String.ofList (numberedName path n)) := by
  obtain ⟨l, e, hlook⟩ := hasPath_iff.1 h
  obtain ⟨hloose, _⟩ := look_eq_found_iff.1 hlook
  obtain ⟨above, habove⟩ := t.namesOf_numbered path n
  rcases lookLoosely_cases (numbered path n) with ⟨place, hfound, _, hstuck⟩ | hnames
  · rw [hstuck] at hloose
    exact absurd hloose (hfound l e)
  · rw [hnames, habove] at hloose
    have hdot := numberedName_ne path n ['.'] (by decide)
    have hdots := numberedName_ne path n ['.', '.'] (by decide)
    obtain ⟨loc', -, rfl, hat⟩ := lookFrom_named hdot hdots hloose
    rw [at?_of_ne_nil t (by simp), Option.map_eq_some_iff] at hat
    obtain ⟨x, hfind, _⟩ := hat
    refine ⟨x, List.mem_of_find?_eq_some hfind, ?_⟩
    have hx : x.1 = loc' ++ [String.ofList (numberedName path n)] := by
      simpa using List.find?_some hfind
    rw [hx, List.getLast?_concat]

/-! ## Available paths -/

/-- Among as many numbers as a tree has entries, and one more, one is free. -/
theorem exists_free_numbered (t : FileTree) (path : String) (n : Nat) :
    ∃ k < t.entries.length + 1, t.hasPath (numbered path (n + k)) = false := by
  by_contra hnone
  have hall : ∀ k < t.entries.length + 1, t.hasPath (numbered path (n + k)) = true := by
    intro k hk
    cases hpath : t.hasPath (numbered path (n + k)) with
    | true => rfl
    | false => exact absurd ⟨k, hk, hpath⟩ hnone
  have hnodup : ((List.range (t.entries.length + 1)).map
      fun k => some (String.ofList (numberedName path (n + k)))).Nodup := by
    refine List.Nodup.map ?_ List.nodup_range
    intro i j hij
    have hsum : n + i = n + j := numberedName_inj (String.ofList_inj.1 (Option.some.inj hij))
    omega
  have hsub : ((List.range (t.entries.length + 1)).map
      fun k => some (String.ofList (numberedName path (n + k)))) ⊆
        t.entries.map fun x => x.1.getLast? := by
    intro last hlast
    obtain ⟨k, hk, rfl⟩ := List.mem_map.1 hlast
    obtain ⟨x, hx, heq⟩ := exists_entry_of_hasPath_numbered (hall k (List.mem_range.1 hk))
    exact List.mem_map.2 ⟨x, hx, heq⟩
  have hle := List.Nodup.length_le_of_subset hnodup hsub
  rw [List.length_map, List.length_map, List.length_range] at hle
  omega

/-- The search for a free number without any bound: it ends at a free one, and goes on with the
next after one that is taken. -/
inductive Search (t : FileTree) (path : String) : Nat → Nat → Prop
  | free {n : Nat} (here : t.hasPath (numbered path n) = false) : Search t path n n
  | taken {n m : Nat} (here : t.hasPath (numbered path n) = true)
      (later : Search t path (n + 1) m) : Search t path n m

/-- Where a search ends there is the least free number from its start on. -/
theorem Search.least {t : FileTree} {path : String} {n m : Nat} (h : t.Search path n m) :
    n ≤ m ∧ t.hasPath (numbered path m) = false ∧
      ∀ k, n ≤ k → k < m → t.hasPath (numbered path k) = true := by
  induction h with
  | @free n here => exact ⟨Nat.le_refl n, here, fun k hle hlt => by omega⟩
  | @taken n m here later ih =>
    obtain ⟨hle, hfree, htaken⟩ := ih
    refine ⟨by omega, hfree, ?_⟩
    intro k hnk hkm
    by_cases hk : k = n
    · rw [hk]
      exact here
    · exact htaken k (by omega) hkm

/-- If one of the next numbers is free, then a search ends among these, and as many attempts find
the same number. -/
theorem firstFree_eq {t : FileTree} {path : String} {attempts n : Nat}
    (h : ∃ k < attempts, t.hasPath (numbered path (n + k)) = false) :
    ∃ m, t.Search path n m ∧ m < n + attempts ∧ t.firstFree path attempts n = numbered path m := by
  induction attempts generalizing n with
  | zero =>
    obtain ⟨k, hk, _⟩ := h
    omega
  | succ attempts ih =>
    obtain ⟨k, hk, hfree⟩ := h
    unfold firstFree
    by_cases hfirst : t.hasPath (numbered path n) = true
    · rw [if_pos hfirst]
      have hnext : ∃ k < attempts, t.hasPath (numbered path (n + 1 + k)) = false := by
        cases k with
        | zero =>
          rw [Nat.add_zero, hfirst] at hfree
          cases hfree
        | succ k =>
          have hsum : n + 1 + k = n + (k + 1) := by omega
          exact ⟨k, by omega, by rw [hsum]; exact hfree⟩
      obtain ⟨m, hm, hlt, heq⟩ := ih hnext
      exact ⟨m, .taken hfirst hm, by omega, heq⟩
    · rw [if_neg hfirst]
      exact ⟨n, .free (Bool.eq_false_iff.2 hfirst), by omega, rfl⟩

/-- An available path leads to nothing. -/
theorem nextAvailable_free (t : FileTree) (path : String) :
    t.hasPath (t.nextAvailable path) = false := by
  unfold nextAvailable
  by_cases hthere : t.hasPath path = true
  · rw [if_pos hthere]
    obtain ⟨m, hm, -, heq⟩ := firstFree_eq (exists_free_numbered t path 2)
    rw [heq]
    exact hm.least.2.1
  · rw [if_neg hthere]
    exact Bool.eq_false_iff.2 hthere

/-- An available path leads to nothing: it is the path itself where this leads to nothing, and else
the numbered path where the search from 2 ends.  That number is the least from 2 on whose path
leads to nothing, and exceeds the number of entries of the tree by 2 at the most. -/
theorem nextAvailable_first (t : FileTree) (path : String) :
    t.hasPath (t.nextAvailable path) = false ∧
    (t.hasPath path = false ∧ t.nextAvailable path = path ∨
      t.hasPath path = true ∧ ∃ n, t.Search path 2 n ∧
        t.nextAvailable path = (Path.splitExtension path).1 ++ "_" ++ Numeral.text n ++
          (Path.splitExtension path).2 ∧
        2 ≤ n ∧ n ≤ t.entries.length + 2 ∧ t.hasPath (numbered path n) = false ∧
        ∀ k, 2 ≤ k → k < n → t.hasPath (numbered path k) = true) := by
  refine ⟨t.nextAvailable_free path, ?_⟩
  unfold nextAvailable
  by_cases hthere : t.hasPath path = true
  · obtain ⟨n, hn, hlt, heq⟩ := firstFree_eq (exists_free_numbered t path 2)
    obtain ⟨hle, hfree, htaken⟩ := hn.least
    rw [if_pos hthere]
    exact .inr ⟨hthere, n, hn, heq, hle, by omega, hfree, htaken⟩
  · rw [if_neg hthere]
    exact .inl ⟨Bool.eq_false_iff.2 hthere, rfl⟩

example : (⟨[(["a.png"], .other), (["a_2.png"], .folder), (["a_4.png"], .other)], []⟩ :
    FileTree).nextAvailable "a.png" = "a_3.png" := by
  decide

end FileTree

end ImageSizing
