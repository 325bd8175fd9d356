import Mathlib.Data.List.TakeWhile

/-! Lists that are read up to a delimiter: the prefix before a terminator, the two sides
of a first separator, and a block of terminated entries that ends in an empty one. -/

universe u

namespace ExPTY.Delimited

variable {α : Type u} [DecidableEq α]

/-- What a reader sees that stops at the terminator. -/
def cut (stop : α) (xs : List α) : List α := xs.takeWhile (· ≠ stop)

/-- The sides of the first separator. -/
def splitFirst (separator : α) : List α → Option (List α × List α)
  | [] => none
  | x :: xs =>
    if x = separator then some ([], xs)
    else (splitFirst separator xs).map fun sides => (x :: sides.1, sides.2)

/-- The sides of the first separator behind the first element. -/
def splitBehind (separator : α) : List α → Option (List α × List α)
  | [] => none
  | x :: xs => (splitFirst separator xs).map fun sides => (x :: sides.1, sides.2)

/-- The entries of a block, up to the first empty one. -/
def entries (stop : α) (block : List α) : List (List α) := (block.splitOn stop).takeWhile (· ≠ [])

variable {stop separator x : α} {xs left right : List α}

theorem cut_eq_self : cut stop xs = xs ↔ stop ∉ xs := by
  simp only [cut, List.takeWhile_eq_self_iff, decide_eq_true_eq]
  exact ⟨fun absent member => absent stop member rfl, fun absent y member same => absent (same ▸ member)⟩

theorem not_mem_cut : stop ∉ cut stop xs := by
  intro member
  have other := List.mem_takeWhile_imp member
  simp at other

theorem splitFirst_eq_some : splitFirst separator xs = some (left, right) ↔ separator ∉ left ∧ xs = left ++ separator :: right := by
  induction xs generalizing left with
  | nil => simp [splitFirst]
  | cons x xs ih =>
    by_cases same : x = separator
    · subst x
      simp only [splitFirst, if_true, Option.some.injEq, Prod.mk.injEq]
      constructor
      · intro given
        obtain ⟨rfl, rfl⟩ := given
        exact ⟨List.not_mem_nil, rfl⟩
      · intro given
        obtain ⟨absent, shape⟩ := given
        cases left with
        | nil => exact ⟨rfl, (List.cons.inj shape).2⟩
        | cons y left => exact absurd ((List.cons.inj shape).1 ▸ .head _) absent
    · simp only [splitFirst, if_neg same, Option.map_eq_some_iff, Prod.exists, Prod.mk.injEq]
      constructor
      · intro given
        obtain ⟨front, back, found, rfl, rfl⟩ := given
        obtain ⟨absent, rfl⟩ := ih.mp found
        exact ⟨fun member => (List.mem_cons.mp member).elim (Ne.symm same) absent, rfl⟩
      · intro given
        obtain ⟨absent, shape⟩ := given
        cases left with
        | nil => exact absurd (List.cons.inj shape).1 same
        | cons y left =>
          obtain ⟨rfl, rest⟩ := List.cons.inj shape
          exact ⟨left, right, ih.mpr ⟨fun member => absent (.tail _ member), rest⟩, rfl, rfl⟩

theorem splitFirst_shorter (found : splitFirst separator xs = some (left, right)) : right.length < xs.length := by
  obtain ⟨-, rfl⟩ := splitFirst_eq_some.mp found
  rw [List.length_append, List.length_cons]
  omega

theorem splitFirst_eq_none : splitFirst separator xs = none ↔ separator ∉ xs := by
  induction xs with
  | nil => simp [splitFirst]
  | cons x xs ih =>
    by_cases same : x = separator
    · simp [splitFirst, same]
    · simp [splitFirst, same, ih, Ne.symm same]

theorem splitBehind_eq_some : splitBehind separator xs = some (left, right) ↔
    left ≠ [] ∧ separator ∉ left.tail ∧ xs = left ++ separator :: right := by
  cases xs with
  | nil => simp [splitBehind]
  | cons x xs =>
    simp only [splitBehind, Option.map_eq_some_iff, Prod.exists, splitFirst_eq_some, Prod.mk.injEq]
    constructor
    · intro given
      obtain ⟨front, back, ⟨absent, rfl⟩, rfl, rfl⟩ := given
      exact ⟨List.cons_ne_nil _ _, absent, rfl⟩
    · intro given
      obtain ⟨full, absent, shape⟩ := given
      obtain ⟨y, front, rfl⟩ := List.exists_cons_of_ne_nil full
      obtain ⟨rfl, rest⟩ := List.cons.inj shape
      exact ⟨front, right, ⟨absent, rest⟩, rfl, rfl⟩

theorem splitFirst_append (absent : separator ∉ left) : splitFirst separator (left ++ separator :: right) = some (left, right) :=
  splitFirst_eq_some.mpr ⟨absent, rfl⟩

/-- The first empty entry hides all entries behind it. -/
theorem entries_block (blocks : List (List α)) (plain : ∀ entry ∈ blocks, stop ∉ entry) (rest : List α) :
    entries stop (blocks.flatMap (· ++ [stop]) ++ stop :: rest) = blocks.takeWhile (· ≠ []) := by
  induction blocks with
  | nil =>
    have split := List.splitOn_append_cons_self_of_not_mem (List.not_mem_nil (a := stop)) rest
    rw [List.flatMap_nil, entries, split]
    rfl
  | cons entry blocks ih =>
    obtain ⟨absent, others⟩ := List.forall_mem_cons.mp plain
    have shape : (entry :: blocks).flatMap (· ++ [stop]) ++ stop :: rest =
        entry ++ stop :: (blocks.flatMap (· ++ [stop]) ++ stop :: rest) := by simp
    have tail := ih others
    rw [entries] at tail
    rw [shape, entries, List.splitOn_append_cons_self_of_not_mem absent, List.takeWhile_cons, List.takeWhile_cons, tail]

end ExPTY.Delimited
