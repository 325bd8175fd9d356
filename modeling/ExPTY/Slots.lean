/-! A state made of numbered components that are only ever added or changed in place,
such as the sessions of a library or the calls in progress. -/

universe u v

namespace ExPTY.Slots

variable {α : Type u}

theorem getElem?_set_found {slots : List α} {index : Nat} {slot slot' : α} (found : slots[index]? = some slot)
    (other : Nat) : (slots.set index slot')[other]? = if index = other then some slot' else slots[other]? := by
  obtain ⟨bound, _⟩ := List.getElem?_eq_some_iff.mp found
  rw [List.getElem?_set]
  split <;> rfl

/-- What holds of the changed component and of all others holds of every component. -/
theorem forall_set {slots : List α} {index : Nat} {slot slot' : α} (found : slots[index]? = some slot)
    {property : Nat → α → Prop} (changed : property index slot')
    (others : ∀ other current, index ≠ other → slots[other]? = some current → property other current) :
    ∀ other current, (slots.set index slot')[other]? = some current → property other current := by
  intro other current held
  rw [getElem?_set_found found] at held
  split at held
  next same =>
    cases held
    subst other
    exact changed
  next different => exact others other current different held

theorem forall_append {slots : List α} {fresh : α} {property : Nat → α → Prop}
    (old : ∀ index slot, index < slots.length → slots[index]? = some slot → property index slot)
    (new : property slots.length fresh) :
    ∀ index slot, (slots ++ [fresh])[index]? = some slot → property index slot := by
  intro index slot held
  rw [List.getElem?_append] at held
  split at held
  · exact old index slot (by assumption) held
  · obtain ⟨bound, same⟩ := List.getElem?_eq_some_iff.mp held
    simp only [List.length_singleton] at bound
    simp only [List.getElem_singleton] at same
    have last : index = slots.length := by omega
    subst same last
    exact new

/-- A part of the components that a change leaves alone. -/
theorem map_set_same {β : Type v} {slots : List α} {index : Nat} {slot slot' : α} (found : slots[index]? = some slot)
    {part : α → β} (same : part slot' = part slot) : (slots.set index slot').map part = slots.map part := by
  apply List.ext_getElem?
  intro other
  rw [List.getElem?_map, List.getElem?_map, getElem?_set_found found]
  split
  next here =>
    subst here
    rw [found, Option.map_some, Option.map_some, same]
  next => rfl

/-- What all the components weigh together. -/
def total (weight : α → Nat) : List α → Nat
  | [] => 0
  | slot :: rest => weight slot + total weight rest

/-- A component that comes to weigh less makes the whole weigh less. -/
theorem total_set_lt {slots : List α} {index : Nat} {slot slot' : α} {weight : α → Nat} (found : slots[index]? = some slot)
    (less : weight slot' < weight slot) : total weight (slots.set index slot') < total weight slots := by
  induction slots generalizing index with
  | nil => cases found
  | cons first rest ih =>
    cases index with
    | zero =>
      cases found
      exact Nat.add_lt_add_right less _
    | succ index =>
      have later := ih (List.getElem?_cons_succ.symm.trans found)
      exact Nat.add_lt_add_left later _

end ExPTY.Slots
