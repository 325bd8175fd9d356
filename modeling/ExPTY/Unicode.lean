/-! The two encodings of Unicode text that this library meets. Text is a list of scalar
values; what is not the encoding of one is not text. An ASCII character stands for itself
in both, and is found in no other character's encoding. -/

namespace ExPTY.Unicode

def utf8 (text : List Char) : List UInt8 := text.flatMap String.utf8EncodeChar

/-- One code unit, or the surrogate pair of a character beyond the first plane. -/
def units (c : Char) : List UInt16 :=
  if c.toNat < 0x10000 then [.ofNat c.toNat]
  else [.ofNat (0xD800 + (c.toNat - 0x10000) / 0x400), .ofNat (0xDC00 + (c.toNat - 0x10000) % 0x400)]

def utf16 (text : List Char) : List UInt16 := text.flatMap units

def decode (bytes : List UInt8) : Option (List Char) := bytes.toByteArray.utf8Decode?.map Array.toList

def ascii (c : Char) : Prop := c.toNat < 0x80

instance (c : Char) : Decidable (ascii c) := inferInstanceAs (Decidable (_ < _))

section Lists
variable (c : Char) (text more : List Char)

@[simp] theorem utf8_nil : utf8 [] = [] := rfl
@[simp] theorem utf8_cons : utf8 (c :: text) = String.utf8EncodeChar c ++ utf8 text := rfl
@[simp] theorem utf8_append : utf8 (text ++ more) = utf8 text ++ utf8 more := List.flatMap_append
@[simp] theorem utf16_nil : utf16 [] = [] := rfl
@[simp] theorem utf16_cons : utf16 (c :: text) = units c ++ utf16 text := rfl
@[simp] theorem utf16_append : utf16 (text ++ more) = utf16 text ++ utf16 more := List.flatMap_append

end Lists

theorem decode_eq_some {bytes : List UInt8} {text : List Char} : decode bytes = some text ↔ utf8 text = bytes := by
  constructor
  · intro decoded
    obtain ⟨chars, found, rfl⟩ := Option.map_eq_some_iff.mp decoded
    obtain ⟨l, encoded⟩ := ByteArray.isSome_utf8Decode?_iff.mp (Option.isSome_of_eq_some found)
    rw [encoded, List.utf8Decode?_utf8Encode] at found
    cases found
    have same : bytes.toByteArray = (utf8 l).toByteArray := encoded
    simpa using (congrArg (fun b => b.data.toList) same).symm
  · intro same
    subst same
    have same : (utf8 text).toByteArray = text.utf8Encode := rfl
    rw [decode, same, List.utf8Decode?_utf8Encode]
    rfl

theorem utf8_ascii {c : Char} (small : ascii c) : String.utf8EncodeChar c = [.ofNat c.toNat] := by
  have bound : c.val.toNat ≤ 0x7f := Nat.le_of_lt_succ small
  simp only [String.utf8EncodeChar, bound, if_true]
  rfl

theorem units_ascii {c : Char} (small : ascii c) : units c = [.ofNat c.toNat] :=
  if_pos (Nat.lt_trans small (by decide))

/-- Beyond ASCII a character has more bytes in UTF-8 than units in UTF-16. -/
theorem units_length_lt {c : Char} (wide : ¬ ascii c) : (units c).length < (String.utf8EncodeChar c).length := by
  have above : ¬ c.val.toNat ≤ 0x7f := fun bound => wide (Nat.lt_succ_of_le bound)
  simp only [String.utf8EncodeChar, above, if_false, units, Char.toNat]
  split
  · split
    · exact Nat.lt_succ_self 1
    · split <;> simp
  next beyond =>
    have far : ¬ c.val.toNat ≤ 0x7ff ∧ ¬ c.val.toNat ≤ 0xffff := by omega
    rw [if_neg far.1, if_neg far.2]
    exact Nat.lt_of_succ_lt (Nat.lt_succ_self 3)

theorem utf16_length_le (text : List Char) : (utf16 text).length ≤ (utf8 text).length := by
  induction text with
  | nil => exact Nat.le_refl 0
  | cons c text ih =>
    simp only [utf16_cons, utf8_cons, List.length_append]
    refine Nat.add_le_add ?_ ih
    by_cases small : ascii c
    · rw [units_ascii small, utf8_ascii small]
      exact Nat.le_refl 1
    · exact Nat.le_of_lt (units_length_lt small)

theorem utf16_length_eq {text : List Char} (same : (utf16 text).length = (utf8 text).length) : ∀ c ∈ text, ascii c := by
  induction text with
  | nil => exact nofun
  | cons c text ih =>
    simp only [utf16_cons, utf8_cons, List.length_append] at same
    have rest := utf16_length_le text
    by_cases small : ascii c
    · rw [units_ascii small, utf8_ascii small] at same
      exact List.forall_mem_cons.mpr ⟨small, ih (Nat.add_left_cancel same)⟩
    · exact absurd same (Nat.ne_of_lt (Nat.add_lt_add_of_lt_of_le (units_length_lt small) rest))

theorem utf16_ascii {text : List Char} (small : ∀ c ∈ text, ascii c) :
    (utf16 text).all (· ≤ 0xFF) = true ∧ (utf16 text).map (·.toUInt8) = utf8 text := by
  induction text with
  | nil => exact ⟨rfl, rfl⟩
  | cons c text ih =>
    obtain ⟨head, tail⟩ := List.forall_mem_cons.mp small
    obtain ⟨fits, bytes⟩ := ih tail
    have unit : UInt16.ofNat c.toNat ≤ 0xFF := by
      have bound : c.toNat < 0x80 := head
      rw [UInt16.le_iff_toNat_le, UInt16.toNat_ofNat', Nat.mod_eq_of_lt (by omega)]
      exact Nat.le_of_lt (Nat.lt_trans bound (by decide))
    rw [utf16_cons, utf8_cons, units_ascii head, utf8_ascii head]
    simp only [List.singleton_append, List.all_cons, List.map_cons, Bool.and_eq_true, decide_eq_true_eq]
    exact ⟨⟨unit, fits⟩, by rw [bytes, UInt16.toUInt8_ofNat']⟩

theorem le_of_mem_encode {c : Char} (wide : ¬ ascii c) {byte : UInt8} (member : byte ∈ String.utf8EncodeChar c) :
    0x80 ≤ byte.toNat := by
  have above : ¬ c.val.toNat ≤ 0x7f := fun bound => wide (Nat.lt_succ_of_le bound)
  have valid := c.valid
  simp only [String.utf8EncodeChar, above, if_false] at member
  split at member
  · simp only [List.mem_cons, List.not_mem_nil, or_false] at member
    rcases member with rfl | rfl <;> simp <;> omega
  · split at member
    · simp only [List.mem_cons, List.not_mem_nil, or_false] at member
      rcases member with rfl | rfl | rfl <;> simp <;> omega
    · simp only [List.mem_cons, List.not_mem_nil, or_false] at member
      rcases member with rfl | rfl | rfl | rfl <;> simp <;> omega

theorem scalar (c : Char) : c.toNat < 0xD800 ∨ 0xDFFF < c.toNat ∧ c.toNat < 0x110000 := c.valid

theorem le_of_mem_units {c : Char} (wide : ¬ ascii c) {unit : UInt16} (member : unit ∈ units c) : 0x80 ≤ unit.toNat := by
  have above : 0x80 ≤ c.toNat := Nat.le_of_not_lt wide
  have range := scalar c
  unfold units at member
  split at member
  · cases List.mem_singleton.mp member
    simp only [UInt16.toNat_ofNat']
    omega
  · simp only [List.mem_cons, List.not_mem_nil, or_false] at member
    rcases member with rfl | rfl <;> simp only [UInt16.toNat_ofNat'] <;> omega

theorem mem_encode {a c : Char} (small : ascii a) : UInt8.ofNat a.toNat ∈ String.utf8EncodeChar c ↔ a = c := by
  constructor
  · intro member
    have left : a.toNat < 0x80 := small
    by_cases plain : ascii c
    · have right : c.toNat < 0x80 := plain
      rw [utf8_ascii plain] at member
      have same := congrArg UInt8.toNat (List.mem_singleton.mp member)
      simp only [UInt8.toNat_ofNat'] at same
      exact Char.toNat_inj.mp (by omega)
    · have large := le_of_mem_encode plain member
      simp only [UInt8.toNat_ofNat'] at large
      omega
  · intro same
    subst same
    rw [utf8_ascii small]
    exact .head _

theorem mem_units {a c : Char} (small : ascii a) : UInt16.ofNat a.toNat ∈ units c ↔ a = c := by
  constructor
  · intro member
    have left : a.toNat < 0x80 := small
    by_cases plain : ascii c
    · have right : c.toNat < 0x80 := plain
      rw [units_ascii plain] at member
      have same := congrArg UInt16.toNat (List.mem_singleton.mp member)
      simp only [UInt16.toNat_ofNat'] at same
      exact Char.toNat_inj.mp (by omega)
    · have large := le_of_mem_units plain member
      simp only [UInt16.toNat_ofNat'] at large
      omega
  · intro same
    subst same
    rw [units_ascii small]
    exact .head _

theorem mem_utf8 {a : Char} (small : ascii a) {text : List Char} : UInt8.ofNat a.toNat ∈ utf8 text ↔ a ∈ text := by
  simp only [utf8, List.mem_flatMap, mem_encode small, exists_eq_right']

theorem mem_utf16 {a : Char} (small : ascii a) {text : List Char} : UInt16.ofNat a.toNat ∈ utf16 text ↔ a ∈ text := by
  simp only [utf16, List.mem_flatMap, mem_units small, exists_eq_right']

/-- Past its first unit too, a text holds the ASCII characters that it holds past its first character. -/
private theorem mem_tail_flatMap {β : Type} {code : Char → List β} {a : Char} {unit : β} (one : code a = [unit])
    (full : ∀ c, code c ≠ []) (mem : ∀ c, unit ∈ code c ↔ a = c) (text : List Char) :
    unit ∈ (text.flatMap code).tail ↔ a ∈ text.tail := by
  have inside : ∀ rest : List Char, unit ∈ rest.flatMap code ↔ a ∈ rest := by
    simp only [List.mem_flatMap, mem, exists_eq_right', implies_true]
  cases text with
  | nil => simp
  | cons c text =>
    by_cases same : a = c
    · subst same
      rw [List.flatMap_cons, one]
      exact inside text
    · have absent : unit ∉ (code c).tail := fun member => same ((mem c).mp (List.mem_of_mem_tail member))
      rw [List.flatMap_cons, List.tail_append_of_ne_nil (full c), List.mem_append, inside]
      exact or_iff_right absent

theorem units_ne_nil (c : Char) : units c ≠ [] := by
  unfold units
  split <;> exact List.cons_ne_nil _ _

@[simp] theorem utf8_eq_nil {text : List Char} : utf8 text = [] ↔ text = [] := by
  cases text <;> simp [String.utf8EncodeChar_ne_nil]

@[simp] theorem utf16_eq_nil {text : List Char} : utf16 text = [] ↔ text = [] := by
  cases text <;> simp [units_ne_nil]

theorem mem_utf8_tail {a : Char} (small : ascii a) {text : List Char} :
    UInt8.ofNat a.toNat ∈ (utf8 text).tail ↔ a ∈ text.tail :=
  mem_tail_flatMap (utf8_ascii small) (fun _ => String.utf8EncodeChar_ne_nil) (fun _ => mem_encode small) text

theorem mem_utf16_tail {a : Char} (small : ascii a) {text : List Char} :
    UInt16.ofNat a.toNat ∈ (utf16 text).tail ↔ a ∈ text.tail :=
  mem_tail_flatMap (units_ascii small) units_ne_nil (fun _ => mem_units small) text

/-- UTF-16 is a prefix code: a unit tells whether a second one belongs to it. -/
theorem units_inj {c d : Char} {left right : List UInt16} (same : units c ++ left = units d ++ right) :
    c = d ∧ left = right := by
  have first := scalar c
  have second := scalar d
  unfold units at same
  split at same <;> split at same <;>
    simp only [List.cons_append, List.nil_append, List.cons.injEq, ← UInt16.toNat_inj, UInt16.toNat_ofNat'] at same
  · exact ⟨Char.toNat_inj.mp (by omega), same.2⟩
  · omega
  · omega
  · exact ⟨Char.toNat_inj.mp (by omega), same.2.2⟩

theorem utf16_inj {text other : List Char} (same : utf16 text = utf16 other) : text = other := by
  induction text generalizing other with
  | nil => exact (utf16_eq_nil.mp same.symm).symm
  | cons c text ih =>
    cases other with
    | nil => exact absurd (utf16_eq_nil.mp same) (List.cons_ne_nil c text)
    | cons d other =>
      obtain ⟨rfl, rest⟩ := units_inj same
      rw [ih rest]

end ExPTY.Unicode
