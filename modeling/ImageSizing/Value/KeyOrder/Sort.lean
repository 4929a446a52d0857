import ImageSizing.Value.KeyOrder.Merge

/-!
# Sorting by runs

`sort` cuts a list into runs and merges them two by two.  Runs are collected on a stack; how
deep the boundary between two runs lies in a balanced tree over the whole list is its
`power`, and a run is merged with the one before it as soon as the next boundary lies higher.
Nothing is lost (`perm_sort`).

For an order this is the stable sort.  A comparison with `nan` is always false, and then the
result depends on where the entries stood.
-/

namespace ImageSizing.KeyOrder

variable {α : Type}

/-- A run on the stack: its entries, where they begin, and the power of the boundary after
them. -/
structure Run (α : Type) where
  entries : List α
  start : Nat
  power : Nat := 0

/-! ## Powers -/

/-- The place of the first binary digit in which `a / n` and `b / n` differ, for `a < b` and
both below 2. -/
def firstDifference (n : Nat) : Nat → Nat → Nat → Nat → Nat
  | 0, place, _, _ => place
  | fuel + 1, place, a, b =>
    if n ≤ a then firstDifference n fuel (place + 1) (2 * (a - n)) (2 * (b - n))
    else if n ≤ b then place
    else firstDifference n fuel (place + 1) (2 * a) (2 * b)

/-- The power of the boundary between two runs of a list of `total` entries: the first binary
digit that tells their midpoints apart. -/
def boundaryPower (total start left right : Nat) : Nat :=
  firstDifference total (total + 1) 1 (2 * start + left) (2 * start + 2 * left + right)

/-- The length that runs are extended to: `length` without its low binary digits, so that
it is below 64, plus one if any of those was set. -/
def leastRun : Nat → Bool → Nat → Nat
  | 0, _, length => length
  | fuel + 1, rest, length =>
    if length < 64 then length + rest.toNat
    else leastRun fuel (rest || length % 2 == 1) (length / 2)

/-! ## The stack -/

def mergeBefore (lt : α → α → Bool) (patience : Nat) (before after : Run α) : Run α × Nat :=
  let (merged, rest) := mergeRuns lt patience before.entries after.entries
  ({ before with entries := merged }, rest)

/-- Merges the runs before a boundary that lie deeper than it. -/
def settle (lt : α → α → Bool) (power : Nat) (patience : Nat) (top : Run α) :
    List (Run α) → List (Run α) × Nat
  | [] => ([{ top with power := power }], patience)
  | before :: rest =>
    if power < before.power then
      let (merged, left) := mergeBefore lt patience before top
      settle lt power left merged rest
    else ({ top with power := power } :: before :: rest, patience)

def push (lt : α → α → Bool) (total : Nat) (stack : List (Run α)) (patience : Nat) (run : Run α) :
    List (Run α) × Nat :=
  match stack with
  | [] => ([run], patience)
  | top :: rest =>
    let power := boundaryPower total top.start top.entries.length run.entries.length
    let (settled, left) := settle lt power patience top rest
    (run :: settled, left)

/-- The stack of all runs of a list. -/
def collect (lt : α → α → Bool) (total least : Nat) :
    Nat → Nat → List (Run α) → Nat → List α → List (Run α) × Nat
  | _, _, stack, patience, [] => (stack, patience)
  | 0, start, stack, patience, xs => (⟨xs, start, 0⟩ :: stack, patience)
  | fuel + 1, start, stack, patience, x :: xs =>
    let (run, rest) := extendedRun lt least (x :: xs)
    let (stack, left) := push lt total stack patience ⟨run, start, 0⟩
    collect lt total least fuel (start + run.length) stack left rest

/-- Merges a stack into one run, of three neighbours the shorter of the outer two first. -/
def collapse (lt : α → α → Bool) : Nat → Nat → List (Run α) → List α
  | fuel + 1, patience, top :: middle :: below :: rest =>
    if below.entries.length < top.entries.length then
      let (merged, left) := mergeBefore lt patience below middle
      collapse lt fuel left (top :: merged :: rest)
    else
      let (merged, left) := mergeBefore lt patience middle top
      collapse lt fuel left (merged :: below :: rest)
  | _, patience, [top, below] => (mergeBefore lt patience below top).1.entries
  | _, _, stack => stack.reverse.flatMap Run.entries

def sort (lt : α → α → Bool) (xs : List α) : List α :=
  let (stack, patience) :=
    collect lt xs.length (leastRun xs.length false xs.length) xs.length 0 [] Merging.worthwhile xs
  collapse lt stack.length patience stack

/-! ## Lemmas -/

/-- All entries of a stack, from its bottom to its top. -/
def contents (stack : List (Run α)) : List α := stack.reverse.flatMap Run.entries

theorem contents_cons (run : Run α) (stack : List (Run α)) :
    contents (run :: stack) = contents stack ++ run.entries := by
  simp [contents]

theorem perm_mergeBefore (lt : α → α → Bool) (patience : Nat) (before after : Run α) :
    (mergeBefore lt patience before after).1.entries.Perm (before.entries ++ after.entries) :=
  perm_mergeRuns lt patience _ _

theorem perm_settle (lt : α → α → Bool) (power patience : Nat) (top : Run α)
    (rest : List (Run α)) :
    (contents (settle lt power patience top rest).1).Perm (contents (top :: rest)) := by
  induction rest generalizing patience top with
  | nil => exact .refl _
  | cons before rest ih =>
    simp only [settle]
    split
    · refine (ih _ _).trans ?_
      rw [contents_cons, contents_cons, contents_cons, List.append_assoc]
      exact (perm_mergeBefore lt patience before top).append_left _
    · rw [contents_cons, contents_cons top]

theorem perm_push (lt : α → α → Bool) (total : Nat) (stack : List (Run α)) (patience : Nat)
    (run : Run α) :
    (contents (push lt total stack patience run).1).Perm (contents stack ++ run.entries) := by
  cases stack with
  | nil => simp [push, contents]
  | cons top rest =>
    simp only [push, contents_cons run]
    exact (perm_settle lt _ patience top rest).append_right _

theorem perm_collect (lt : α → α → Bool) (total least fuel start : Nat) (stack : List (Run α))
    (patience : Nat) (xs : List α) :
    (contents (collect lt total least fuel start stack patience xs).1).Perm
      (contents stack ++ xs) := by
  induction fuel generalizing start stack patience xs with
  | zero =>
    cases xs with
    | nil => simp [collect]
    | cons x xs => simp [collect, contents_cons]
  | succ fuel ih =>
    cases xs with
    | nil => simp [collect]
    | cons x xs =>
      simp only [collect]
      refine (ih _ _ _ _).trans (((perm_push lt total stack patience _).append_right _).trans ?_)
      rw [List.append_assoc]
      exact (perm_extendedRun lt least (x :: xs)).append_left _

theorem perm_collapse (lt : α → α → Bool) (fuel patience : Nat) (stack : List (Run α)) :
    (collapse lt fuel patience stack).Perm (contents stack) := by
  induction fuel generalizing patience stack with
  | zero =>
    match stack with
    | [] => exact .refl _
    | [top] => exact .refl _
    | [top, below] =>
      simpa [collapse, contents] using perm_mergeBefore lt patience below top
    | top :: middle :: below :: rest => exact .refl _
  | succ fuel ih =>
    match stack with
    | [] => exact .refl _
    | [top] => exact .refl _
    | [top, below] =>
      simpa [collapse, contents] using perm_mergeBefore lt patience below top
    | top :: middle :: below :: rest =>
      simp only [collapse]
      split
      · refine (ih _ _).trans ?_
        simp only [contents_cons, List.append_assoc]
        refine List.Perm.append_left _ ?_
        rw [← List.append_assoc]
        exact (perm_mergeBefore lt patience below middle).append_right _
      · refine (ih _ _).trans ?_
        simp only [contents_cons, List.append_assoc]
        refine List.Perm.append_left _ (List.Perm.append_left _ ?_)
        exact perm_mergeBefore lt patience middle top

theorem perm_sort (lt : α → α → Bool) (xs : List α) : (sort lt xs).Perm xs :=
  (perm_collapse lt _ _ _).trans
    ((perm_collect lt _ _ _ 0 [] _ xs).trans (by simp [contents]))

end ImageSizing.KeyOrder
