/-!
# Runs

The beginning of a list is often in order already.  `firstRun` takes the first entries that
ascend, or that strictly descend and are then turned around; `extendedRun` makes a run of at
least a given length by putting further entries into their places by binary search, each
after the entries that it is not below.  Nothing is lost (`perm_extendedRun`).
-/

namespace ImageSizing.KeyOrder

variable {α : Type}

/-! ## Runs that are there -/

/-- The entries after `last` while each is below the one before it if `falling`, not below
it otherwise; and the rest. -/
def takeRun (lt : α → α → Bool) (falling : Bool) (last : α) : List α → List α × List α
  | [] => ([], [])
  | x :: xs =>
    if lt x last = falling then
      let (run, rest) := takeRun lt falling x xs
      (x :: run, rest)
    else ([], x :: xs)

/-- The first run, ascending, and the rest. -/
def firstRun (lt : α → α → Bool) : List α → List α × List α
  | x :: y :: rest =>
    let falling := lt y x
    let (run, after) := takeRun lt falling x (y :: rest)
    (if falling then (x :: run).reverse else x :: run, after)
  | xs => (xs, [])

/-! ## Binary insertion -/

/-- The place of an entry between `low` and `high` in a run. -/
def place (lt : α → α → Bool) (x : α) (run : List α) : Nat → Nat → Nat → Nat
  | 0, low, _ => low
  | fuel + 1, low, high =>
    if low < high then
      let middle := (low + high) / 2
      if run[middle]?.any (lt x ·) then place lt x run fuel low middle
      else place lt x run fuel (middle + 1) high
    else low

/-- Puts an entry at a place. -/
def insertAt (x : α) (xs : List α) (n : Nat) : List α := xs.take n ++ x :: xs.drop n

def insert (lt : α → α → Bool) (run : List α) (x : α) : List α :=
  insertAt x run (place lt x run run.length 0 run.length)

/-- The first run, made as long as `least` with the entries that follow it, and the rest. -/
def extendedRun (lt : α → α → Bool) (least : Nat) (xs : List α) : List α × List α :=
  let missing := least - (firstRun lt xs).1.length
  (((firstRun lt xs).2.take missing).foldl (insert lt) (firstRun lt xs).1,
    (firstRun lt xs).2.drop missing)

/-! ## Lemmas -/

theorem takeRun_append (lt : α → α → Bool) (falling : Bool) (last : α) (xs : List α) :
    (takeRun lt falling last xs).1 ++ (takeRun lt falling last xs).2 = xs := by
  induction xs generalizing last with
  | nil => rfl
  | cons x xs ih =>
    unfold takeRun
    split
    · simp [ih x]
    · rfl

theorem perm_insertAt (x : α) (xs : List α) (n : Nat) : (insertAt x xs n).Perm (x :: xs) := by
  refine List.perm_middle.trans ?_
  rw [List.take_append_drop]

theorem perm_insert (lt : α → α → Bool) (run : List α) (x : α) :
    (insert lt run x).Perm (x :: run) :=
  perm_insertAt x run _

theorem perm_firstRun (lt : α → α → Bool) (xs : List α) :
    ((firstRun lt xs).1 ++ (firstRun lt xs).2).Perm xs := by
  match xs with
  | [] => simp [firstRun]
  | [x] => simp [firstRun]
  | x :: y :: rest =>
    have h := takeRun_append lt (lt y x) x (y :: rest)
    simp only [firstRun]
    split
    · refine ((List.reverse_perm _).append_right _).trans ?_
      simp [h]
    · simp [h]

theorem perm_foldl_insert (lt : α → α → Bool) (xs run : List α) :
    (xs.foldl (insert lt) run).Perm (run ++ xs) := by
  induction xs generalizing run with
  | nil => simp
  | cons x xs ih =>
    refine (ih _).trans (((perm_insert lt run x).append_right xs).trans ?_)
    exact List.perm_middle.symm

theorem perm_extendedRun (lt : α → α → Bool) (least : Nat) (xs : List α) :
    ((extendedRun lt least xs).1 ++ (extendedRun lt least xs).2).Perm xs := by
  simp only [extendedRun]
  refine ((perm_foldl_insert lt _ _).append_right _).trans ?_
  rw [List.append_assoc, List.take_append_drop]
  exact perm_firstRun lt xs

end ImageSizing.KeyOrder
