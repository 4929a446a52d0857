import ImageSizing.Value.KeyOrder.Run

/-!
# Merging runs

`mergeRuns` merges two runs that follow one another.  The shorter run is kept apart and the
merge goes forward when that is the left run, backward when it is the right one.  It compares
heads one by one until one side wins `patience` times in a row; then it looks in growing
strides for how far each side goes before the head of the other (`leading`), as long as that
passes over enough entries.  The patience is lowered by every round of strides and raised
when they end, and is handed on to the next merge.  Nothing is lost (`perm_mergeRuns`).
-/

namespace ImageSizing.KeyOrder

variable {α : Type}

/-! ## Strides -/

/-- The place halfway between two places; rounded up in a list that was turned around. -/
def middle (backward : Bool) (low high : Nat) : Nat :=
  if backward then low + (high - low + 1) / 2 - 1 else low + (high - low) / 2

/-- The first place between `low` and `high` that is not passed, by halving. -/
def halve (backward : Bool) (passes : Nat → Bool) : Nat → Nat → Nat → Nat
  | 0, low, _ => low
  | fuel + 1, low, high =>
    if low < high then
      let m := middle backward low high
      if passes m then halve backward passes fuel (m + 1) high
      else halve backward passes fuel low m
    else low

/-- The last place that was passed and the next one to look at, in growing strides. -/
def stride (passes : Nat → Bool) (length : Nat) : Nat → Nat → Nat → Nat × Nat
  | 0, last, next => (last, next)
  | fuel + 1, last, next =>
    if next < length && passes next then stride passes length fuel next (2 * next + 1)
    else (last, next)

/-- How many entries at the front of a list are passed. -/
def leading (backward : Bool) (passes : α → Bool) (xs : List α) : Nat :=
  let holds := fun i => xs[i]?.any passes
  if holds 0 then
    let (last, next) := stride holds xs.length xs.length 0 1
    halve backward holds xs.length (last + 1) (Nat.min next xs.length)
  else 0

/-! ## A merge under way -/

/-- What is merged, last entry first, and what is left of the two runs. -/
structure Merging (α : Type) where
  merged : List α
  kept : List α
  other : List α

namespace Merging

/-- Whether the rest of the merge is settled: the kept run ends with its last entry. -/
def isDone (m : Merging α) : Bool := m.other.isEmpty || m.kept.length ≤ 1

/-- All entries, the rest of the kept run coming last. -/
def finish (m : Merging α) : List α := m.merged.reverse ++ (m.other ++ m.kept)

/-- Takes the head of the other run. -/
def takeOther (m : Merging α) : Merging α :=
  match m.other with
  | [] => m
  | x :: xs => ⟨x :: m.merged, m.kept, xs⟩

/-- Takes the head of the kept run. -/
def takeKept (m : Merging α) : Merging α :=
  match m.kept with
  | [] => m
  | x :: xs => ⟨x :: m.merged, xs, m.other⟩

/-- Takes entries of the kept run. -/
def moveKept (m : Merging α) (count : Nat) : Merging α :=
  ⟨(m.kept.take count).reverse ++ m.merged, m.kept.drop count, m.other⟩

/-- Takes entries of the other run. -/
def moveOther (m : Merging α) (count : Nat) : Merging α :=
  ⟨(m.other.take count).reverse ++ m.merged, m.kept, m.other.drop count⟩

/-- Takes what of the kept run goes before the head of the other, and then that head. -/
def passKept (lt : α → α → Bool) (backward : Bool) (m : Merging α) : Nat × Merging α :=
  let count := leading backward (fun t => m.other.head?.any fun x => !lt x t) m.kept
  let moved := m.moveKept count
  (count, if moved.isDone then moved else moved.takeOther)

/-- Takes what of the other run goes before the head of the kept one, and then that head. -/
def passOther (lt : α → α → Bool) (backward : Bool) (m : Merging α) : Nat × Merging α :=
  let count := leading backward (fun x => m.kept.head?.any (lt x ·)) m.other
  let moved := m.moveOther count
  (count, if moved.isDone then moved else moved.takeKept)

/-- The number of entries that a stride has to pass over to be worth another one. -/
def worthwhile : Nat := 7

/-- Both sides by strides, and the greater of the two counts. -/
def passBoth (lt : α → α → Bool) (backward : Bool) (m : Merging α) : Nat × Merging α :=
  let (first, a) := if backward then m.passOther lt backward else m.passKept lt backward
  if a.isDone then (first, a)
  else
    let (second, b) := if backward then a.passKept lt backward else a.passOther lt backward
    (Nat.max first second, b)

/-- How a merge goes on: head by head, with the number of times that each side won last, or
by strides. -/
inductive Manner where
  | heads (kept other : Nat)
  | strides

/-- Whether the head of the other run goes first. -/
def otherFirst (lt : α → α → Bool) (m : Merging α) : Bool :=
  m.other.head?.any fun x => m.kept.head?.any (lt x ·)

def takeFirst (lt : α → α → Bool) (m : Merging α) : Merging α :=
  if m.otherFirst lt then m.takeOther else m.takeKept

/-- Goes on to the end with a merge that is not settled; also the patience that is left. -/
def run (lt : α → α → Bool) (backward : Bool) : Nat → Manner → Nat → Merging α → List α × Nat
  | 0, _, patience, m => (m.finish, patience)
  | fuel + 1, .heads kept other, patience, m =>
    let next := m.takeFirst lt
    if next.isDone then (next.finish, patience)
    else if m.otherFirst lt then
      if patience ≤ other + 1 then run lt backward fuel .strides (patience + 1) next
      else run lt backward fuel (.heads 0 (other + 1)) patience next
    else if patience ≤ kept + 1 then run lt backward fuel .strides (patience + 1) next
    else run lt backward fuel (.heads (kept + 1) 0) patience next
  | fuel + 1, .strides, patience, m =>
    let lowered := if 1 < patience then patience - 1 else patience
    let (count, next) := m.passBoth lt backward
    if next.isDone then (next.finish, lowered)
    else if worthwhile ≤ count then run lt backward fuel .strides lowered next
    else run lt backward fuel (.heads 0 0) (lowered + 1) next

end Merging

/-- Merges a run that is kept apart with another one whose head goes first. -/
def mergeHeads (lt : α → α → Bool) (backward : Bool) (patience : Nat) (kept other : List α) :
    List α × Nat :=
  let m := (Merging.mk [] kept other).takeOther
  if m.isDone then (m.finish, patience)
  else Merging.run lt backward (kept.length + other.length) (.heads 0 0) patience m

/-- Merges two runs none of which is in place. -/
def mergeParts (lt : α → α → Bool) (patience : Nat) (left right : List α) : List α × Nat :=
  if left.length ≤ right.length then mergeHeads lt false patience left right
  else
    let (merged, rest) :=
      mergeHeads (fun a b => lt b a) true patience right.reverse left.reverse
    (merged.reverse, rest)

/-- The entries of the left run that stay where they are. -/
def settledLeft (lt : α → α → Bool) (left right : List α) : Nat :=
  leading false (fun x => right.head?.any fun y => !lt y x) left

/-- The entries at the end of the right run that stay where they are. -/
def settledRight (lt : α → α → Bool) (left right : List α) : Nat :=
  leading true (fun y => left.getLast?.any fun x => !lt y x) right.reverse

/-- Merges two runs that follow one another; also the patience that is left. -/
def mergeRuns (lt : α → α → Bool) (patience : Nat) (left right : List α) : List α × Nat :=
  let low := settledLeft lt left right
  let high := right.length - settledRight lt (left.drop low) right
  if (left.drop low).isEmpty || (right.take high).isEmpty then (left ++ right, patience)
  else
    let (merged, rest) := mergeParts lt patience (left.drop low) (right.take high)
    (left.take low ++ (merged ++ right.drop high), rest)

/-! ## Lemmas -/

namespace Merging

theorem finish_takeOther (m : Merging α) : m.takeOther.finish = m.finish := by
  unfold takeOther
  split <;> simp_all [finish]

theorem perm_takeKept (m : Merging α) : m.takeKept.finish.Perm m.finish := by
  unfold takeKept
  split
  · exact .refl _
  · next x xs h =>
    simp only [finish, h, List.reverse_cons, List.append_assoc]
    exact List.Perm.append_left _ (by simpa using List.perm_middle.symm)

theorem perm_moveKept (m : Merging α) (count : Nat) : (m.moveKept count).finish.Perm m.finish := by
  simp only [finish, moveKept, List.reverse_append, List.reverse_reverse, List.append_assoc]
  refine List.Perm.append_left _ ?_
  rw [← List.append_assoc]
  refine (List.perm_append_comm.append_right _).trans ?_
  rw [List.append_assoc, List.take_append_drop]

theorem finish_moveOther (m : Merging α) (count : Nat) : (m.moveOther count).finish = m.finish := by
  simp only [finish, moveOther, List.reverse_append, List.reverse_reverse, List.append_assoc]
  rw [← List.append_assoc (m.other.take count), List.take_append_drop]

theorem perm_passKept (lt : α → α → Bool) (backward : Bool) (m : Merging α) :
    (m.passKept lt backward).2.finish.Perm m.finish := by
  simp only [passKept]
  split
  · exact perm_moveKept m _
  · rw [finish_takeOther]
    exact perm_moveKept m _

theorem perm_passOther (lt : α → α → Bool) (backward : Bool) (m : Merging α) :
    (m.passOther lt backward).2.finish.Perm m.finish := by
  simp only [passOther]
  split
  · rw [finish_moveOther]
  · refine (perm_takeKept _).trans ?_
    rw [finish_moveOther]

theorem perm_passBoth (lt : α → α → Bool) (backward : Bool) (m : Merging α) :
    (m.passBoth lt backward).2.finish.Perm m.finish := by
  cases backward
  · simp only [passBoth, Bool.false_eq_true, if_false]
    split
    · exact perm_passKept lt false m
    · exact (perm_passOther lt false _).trans (perm_passKept lt false m)
  · simp only [passBoth, if_true]
    split
    · exact perm_passOther lt true m
    · exact (perm_passKept lt true _).trans (perm_passOther lt true m)

theorem perm_takeFirst (lt : α → α → Bool) (m : Merging α) :
    (m.takeFirst lt).finish.Perm m.finish := by
  unfold takeFirst
  split
  · rw [finish_takeOther]
  · exact perm_takeKept m

theorem perm_run (lt : α → α → Bool) (backward : Bool) (fuel : Nat) (manner : Manner)
    (patience : Nat) (m : Merging α) :
    (run lt backward fuel manner patience m).1.Perm m.finish := by
  induction fuel generalizing manner patience m with
  | zero => cases manner <;> exact .refl _
  | succ fuel ih =>
    cases manner with
    | heads kept other =>
      simp only [run]
      split
      · exact perm_takeFirst lt m
      · split <;> split <;> exact (ih _ _ _).trans (perm_takeFirst lt m)
    | strides =>
      simp only [run]
      split
      · exact perm_passBoth lt backward m
      · split <;> exact (ih _ _ _).trans (perm_passBoth lt backward m)

end Merging

theorem perm_mergeHeads (lt : α → α → Bool) (backward : Bool) (patience : Nat)
    (kept other : List α) : (mergeHeads lt backward patience kept other).1.Perm (other ++ kept) := by
  have h : (Merging.mk [] kept other).takeOther.finish = other ++ kept :=
    (Merging.finish_takeOther _).trans rfl
  simp only [mergeHeads]
  split
  · rw [h]
  · exact (Merging.perm_run lt backward _ _ _ _).trans (by rw [h])

theorem perm_mergeParts (lt : α → α → Bool) (patience : Nat) (left right : List α) :
    (mergeParts lt patience left right).1.Perm (left ++ right) := by
  unfold mergeParts
  split
  · exact (perm_mergeHeads lt false patience left right).trans List.perm_append_comm
  · refine (List.reverse_perm _).trans ((perm_mergeHeads _ true patience _ _).trans ?_)
    exact (List.reverse_perm left).append (List.reverse_perm right)

theorem perm_mergeRuns (lt : α → α → Bool) (patience : Nat) (left right : List α) :
    (mergeRuns lt patience left right).1.Perm (left ++ right) := by
  simp only [mergeRuns]
  split
  · exact .refl _
  · refine (((perm_mergeParts lt patience _ _).append_right _).append_left _).trans ?_
    rw [List.append_assoc (left.drop _), List.take_append_drop, ← List.append_assoc,
      List.take_append_drop]

end ImageSizing.KeyOrder
