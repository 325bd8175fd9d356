/-! Descriptor tables: what `open`, `close`, `dup2`, `fcntl`, `posix_spawn` and `exec`
do to them. What a descriptor refers to is left open, and so is the choice of a free
number. Nothing here mentions terminals. -/

universe u

namespace ExPTY.Descriptors

abbrev Fd := Nat

structure Entry (ω : Type u) where
  object : ω
  cloexec : Bool := false
  deriving DecidableEq, Repr

abbrev Table (ω : Type u) := Fd → Option (Entry ω)

inductive Action where
  | dup2 (source target : Fd)
  | close (fd : Fd)
  deriving DecidableEq, Repr

def Action.made : Action → Option Fd
  | .dup2 _ target => some target
  | .close _ => none

namespace Table

variable {ω : Type u} (table : Table ω)

def set (fd : Fd) (entry : Option (Entry ω)) : Table ω := fun other => if other = fd then entry else table other

def install (fd : Fd) (object : ω) : Table ω := table.set fd (some { object })

def close (fd : Fd) : Table ω := table.set fd none

def closeAll (fds : List Fd) : Table ω := fds.foldl close table

/-- `dup2`, which clears close-on-exec and fails when the source is not open. -/
def dup2 (source target : Fd) : Option (Table ω) :=
  (table source).map fun entry => table.set target (some { entry with cloexec := false })

/-- `fcntl(fd, F_SETFD, FD_CLOEXEC)` -/
def setCloexec (fd : Fd) : Table ω := table.set fd ((table fd).map fun entry => { entry with cloexec := true })

def exec : Table ω := fun fd => (table fd).filter fun entry => !entry.cloexec

def act : Action → Option (Table ω)
  | .dup2 source target => table.dup2 source target
  | .close fd => some (table.close fd)

def perform (actions : List Action) : Option (Table ω) := actions.foldlM act table

/-- The table that a new process starts with, unless a file action fails. With
`cloexecDefault` it has only the descriptors that file actions made. -/
def posix_spawn (actions : List Action) (cloexecDefault : Bool) : Option (Table ω) :=
  (table.perform actions).map fun child fd =>
    if cloexecDefault ∧ fd ∉ actions.filterMap Action.made then none else child fd

/-- The number that the kernel gives to a new descriptor. -/
def lowest (fd : Fd) : Bool := (table fd).isNone && (List.range fd).all fun lower => (table lower).isSome

@[simp] theorem set_same (fd : Fd) (entry : Option (Entry ω)) : table.set fd entry fd = entry := if_pos rfl

theorem set_other {fd other : Fd} (entry : Option (Entry ω)) (different : other ≠ fd) :
    table.set fd entry other = table other := if_neg different

theorem lowest_iff {fd : Fd} : table.lowest fd = true ↔ table fd = none ∧ ∀ lower < fd, table lower ≠ none := by
  simp [lowest, Option.isSome_iff_ne_none]

/-- Two descriptors made in a row. -/
theorem lowest_lt {first second : Fd} {object : ω} (low : table.lowest first = true)
    (next : (table.install first object).lowest second = true) : first < second := by
  obtain ⟨_, below⟩ := table.lowest_iff.mp low
  obtain ⟨free, _⟩ := (lowest_iff _).mp next
  have different : second ≠ first := by
    intro same
    subst same
    cases (table.set_same second _).symm.trans free
  have vacant : table second = none := (table.set_other _ different).symm.trans free
  apply Nat.lt_of_not_le
  intro before
  exact below second (Nat.lt_of_le_of_ne before different) vacant

theorem closeAll_apply (fds : List Fd) (fd : Fd) : table.closeAll fds fd = if fd ∈ fds then none else table fd := by
  induction fds generalizing table with
  | nil => rfl
  | cons first rest ih =>
    change (table.close first).closeAll rest fd = _
    rw [ih, close, set]
    by_cases later : fd ∈ rest
    · simp [later]
    · simp [later]

theorem dup2_eq_some {source target : Fd} {next : Table ω} :
    table.dup2 source target = some next ↔
      ∃ entry, table source = some entry ∧ table.set target (some { object := entry.object }) = next := by
  simp [dup2]

theorem perform_append (first second : List Action) :
    table.perform (first ++ second) = (table.perform first).bind fun middle => middle.perform second :=
  List.foldlM_append ..

/-- One descriptor copied to several numbers, any of which may be its own. -/
theorem perform_dup2 {source : Fd} {object : ω} (targets : List Fd) (present : table source = some { object }) :
    table.perform (targets.map (.dup2 source)) = some fun fd => if fd ∈ targets then some { object } else table fd := by
  induction targets generalizing table with
  | nil => rfl
  | cons target rest ih =>
    have made : table.dup2 source target = some (table.set target (some { object })) := by simp [dup2, present]
    have still : table.set target (some { object }) source = some { object } := by
      by_cases same : source = target
      · rw [same, set_same]
      · rw [set_other _ _ same, present]
    change (table.dup2 source target).bind (fun middle => middle.perform (rest.map (.dup2 source))) = _
    rw [made, Option.bind_some, ih _ still]
    congr 1
    funext fd
    by_cases later : fd ∈ rest
    · simp [later]
    · simp [later, set]

theorem exec_eq_some {fd : Fd} {entry : Entry ω} :
    table.exec fd = some entry ↔ table fd = some entry ∧ entry.cloexec = false := by
  simp [exec, Option.filter_eq_some_iff]

end Table

section Ownership
variable {ω : Type u} {mine yours : ω → Prop} {before after table : Table ω} {held : List (Fd × ω)}

/-- The descriptors of one owner are exactly these. -/
structure Holds (mine : ω → Prop) (held : List (Fd × ω)) (table : Table ω) : Prop where
  present : ∀ pair ∈ held, table pair.1 = some { object := pair.2 }
  only : ∀ fd entry, table fd = some entry → mine entry.object → (fd, entry.object) ∈ held

/-- What one owner does to a table: its own entries come and go. -/
def Touches (yours : ω → Prop) (before after : Table ω) : Prop :=
  ∀ fd, after fd ≠ before fd →
    (∀ entry, before fd = some entry → yours entry.object) ∧ (∀ entry, after fd = some entry → yours entry.object)

theorem Touches.refl (table : Table ω) : Touches yours table table := fun _ changed => absurd rfl changed

theorem Touches.trans {middle : Table ω} (first : Touches yours before middle) (later : Touches yours middle after) :
    Touches yours before after := by
  intro fd changed
  by_cases same : middle fd = before fd
  · rw [← same] at changed ⊢
    exact later fd changed
  · refine ⟨(first fd same).1, ?_⟩
    by_cases same' : after fd = middle fd
    · rw [same']
      exact (first fd same).2
    · exact (later fd same').2

theorem Touches.set {fd : Fd} {entry : Option (Entry ω)} (old : ∀ current, table fd = some current → yours current.object)
    (new : ∀ current, entry = some current → yours current.object) : Touches yours table (table.set fd entry) := by
  intro other changed
  by_cases same : other = fd
  · subst other
    rw [Table.set_same]
    exact ⟨old, new⟩
  · exact absurd (table.set_other entry same) changed

theorem Touches.install {fd : Fd} {object : ω} (free : table fd = none) (own : yours object) :
    Touches yours table (table.install fd object) := by
  apply Touches.set
  · intro current held
    rw [free] at held
    cases held
  · intro current same
    cases same
    exact own

/-- Owners do not get in each other's way. -/
theorem Holds.frame (holds : Holds mine held before) (touches : Touches yours before after)
    (foreign : ∀ object, mine object → ¬ yours object) (owned : ∀ pair ∈ held, mine pair.2) : Holds mine held after := by
  refine ⟨?_, ?_⟩
  · intro pair member
    have present := holds.present pair member
    by_cases same : after pair.1 = before pair.1
    · exact same.trans present
    · exact absurd ((touches pair.1 same).1 _ present) (foreign pair.2 (owned pair member))
  · intro fd entry found own
    by_cases same : after fd = before fd
    · exact holds.only fd entry (same.symm.trans found) own
    · exact absurd ((touches fd same).2 entry found) (foreign entry.object own)

theorem Holds.congr {held' : List (Fd × ω)} (holds : Holds mine held table) (same : ∀ pair, pair ∈ held' ↔ pair ∈ held) :
    Holds mine held' table :=
  ⟨fun pair member => holds.present pair ((same pair).mp member),
    fun fd entry found own => (same _).mpr (holds.only fd entry found own)⟩

theorem Holds.install (holds : Holds mine held table) {fd : Fd} (object : ω) (free : table fd = none) :
    Holds mine ((fd, object) :: held) (table.install fd object) := by
  refine ⟨?_, ?_⟩
  · intro pair member
    rcases List.mem_cons.mp member with rfl | member
    · exact table.set_same _ _
    · have present := holds.present pair member
      have different : pair.1 ≠ fd := by
        intro same
        rw [same, free] at present
        cases present
      exact (table.set_other _ different).trans present
  · intro other entry found own
    by_cases same : other = fd
    · subst other
      cases (table.set_same _ _).symm.trans found
      exact List.mem_cons_self
    · exact List.mem_cons_of_mem _ (holds.only other entry ((table.set_other _ same).symm.trans found) own)

theorem Holds.close {fd : Fd} {object : ω} (holds : Holds mine ((fd, object) :: held) table)
    (once : ∀ pair ∈ held, pair.2 ≠ object) : Holds mine held (table.close fd) := by
  have present := holds.present (fd, object) List.mem_cons_self
  refine ⟨?_, ?_⟩
  · intro pair member
    have found := holds.present pair (List.mem_cons_of_mem _ member)
    have different : pair.1 ≠ fd := by
      intro same
      rw [same, present] at found
      cases found
      exact once pair member rfl
    exact (table.set_other _ different).trans found
  · intro other entry found own
    have different : other ≠ fd := by
      intro same
      subst other
      cases (table.set_same _ _).symm.trans found
    have unchanged := (table.set_other _ different).symm.trans found
    rcases List.mem_cons.mp (holds.only other entry unchanged own) with same | member
    · exact absurd (congrArg Prod.fst same) different
    · exact member

end Ownership

end ExPTY.Descriptors
