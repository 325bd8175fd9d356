/-! The documented reading of a Windows command line. The first argument runs to its
closing quote or to the first blank; the others are cut at the blanks outside quotes,
with a backslash special only in a run that ends at a quote. The scanner keeps such
a run apart until the next character decides what it means. -/

namespace ExPTY.Argv

def blank (c : Char) : Bool := c == ' ' || c == '\t'

/-- The state between two characters of the argument text. No word is open between
arguments; an empty one is open right after an opening quote. -/
structure Scanner where
  quoted : Bool := false
  pending : Nat := 0
  word : Option (List Char) := none
  done : List (List Char) := []
  deriving DecidableEq, Repr

namespace Scanner

def text (scanner : Scanner) : List Char := scanner.word.getD []

/-- The open word once the pending backslashes are known to be literal. -/
def literal (scanner : Scanner) : Option (List Char) :=
  if scanner.pending = 0 then scanner.word else some (scanner.text ++ List.replicate scanner.pending '\\')

def feed (scanner : Scanner) (c : Char) : Scanner :=
  if c = '\\' then
    { scanner with pending := scanner.pending + 1 }
  else if c = '"' then
    let word := scanner.text ++ List.replicate (scanner.pending / 2) '\\'
    if scanner.pending % 2 = 1 then
      { scanner with pending := 0, word := some (word ++ ['"']) }
    else
      { scanner with pending := 0, word := some word, quoted := !scanner.quoted }
  else if blank c ∧ scanner.quoted = false then
    { scanner with pending := 0, word := none, done := scanner.done ++ scanner.literal.toList }
  else
    { scanner with pending := 0, word := some (scanner.text ++ List.replicate scanner.pending '\\' ++ [c]) }

def scan (scanner : Scanner) (text : List Char) : Scanner := text.foldl feed scanner

def finish (scanner : Scanner) : List (List Char) := scanner.done ++ scanner.literal.toList

end Scanner

open Scanner

/-- The arguments of a text that holds no program name. -/
def arguments (text : List Char) : List (List Char) := (scan {} text).finish

def splitProgram : List Char → List Char × List Char
  | '"' :: text => (text.takeWhile (· != '"'), (text.dropWhile (· != '"')).drop 1)
  | text => (text.takeWhile (!blank ·), text.dropWhile (!blank ·))

def commandLineToArgvW (text : List Char) : List (List Char) :=
  (splitProgram text).1 :: arguments (splitProgram text).2

theorem splitProgram_quoted (text : List Char) :
    splitProgram ('"' :: text) = (text.takeWhile (· != '"'), (text.dropWhile (· != '"')).drop 1) := rfl

theorem splitProgram_plain {c : Char} (notQuote : c ≠ '"') (text : List Char) :
    splitProgram (c :: text) = ((c :: text).takeWhile (!blank ·), (c :: text).dropWhile (!blank ·)) :=
  splitProgram.eq_2 _ fun _ same => notQuote (List.cons.inj same).1

@[simp] theorem blank_space : blank ' ' = true := rfl

@[simp] theorem blank_backslash : blank '\\' = false := rfl

@[simp] theorem blank_quote : blank '"' = false := rfl

theorem exists_blank {text : List Char} : (∃ c ∈ text, blank c = true) ↔ ' ' ∈ text ∨ '\t' ∈ text := by
  simp only [blank, Bool.or_eq_true, beq_iff_eq]
  constructor
  · rintro ⟨c, member, rfl | rfl⟩
    · exact Or.inl member
    · exact Or.inr member
  · rintro (member | member)
    · exact ⟨_, member, Or.inl rfl⟩
    · exact ⟨_, member, Or.inr rfl⟩

namespace Scanner

variable (scanner : Scanner)

@[simp] theorem scan_nil : scanner.scan [] = scanner := rfl

@[simp] theorem scan_cons (c : Char) (text : List Char) : scanner.scan (c :: text) = (scanner.feed c).scan text := rfl

@[simp] theorem scan_append (first second : List Char) : scanner.scan (first ++ second) = (scanner.scan first).scan second :=
  List.foldl_append

/-- Completed arguments are only ever added to. -/
def after (earlier : List (List Char)) (scanner : Scanner) : Scanner := { scanner with done := earlier ++ scanner.done }

theorem feed_after (earlier : List (List Char)) (c : Char) : (after earlier scanner).feed c = after earlier (scanner.feed c) := by
  unfold feed
  split
  · rfl
  · split
    · by_cases odd : scanner.pending % 2 = 1
      · simp [after, text, odd]
      · simp [after, text, odd]
    · by_cases ends : blank c = true ∧ scanner.quoted = false
      · simp [after, literal, text, ends]
      · simp [after, text, ends]

theorem scan_after (earlier : List (List Char)) (text : List Char) :
    (after earlier scanner).scan text = after earlier (scanner.scan text) := by
  induction text generalizing scanner with
  | nil => rfl
  | cons c text ih => rw [scan_cons, scan_cons, feed_after, ih]

theorem finish_after (earlier : List (List Char)) : (after earlier scanner).finish = earlier ++ scanner.finish :=
  List.append_assoc earlier scanner.done scanner.literal.toList

variable {scanner}

/-- A blank outside quotes closes whatever argument is open. -/
theorem feed_blank (outside : scanner.quoted = false) {c : Char} (separates : blank c = true) :
    scanner.feed c = after scanner.finish {} := by
  have notBackslash : c ≠ '\\' := by rintro rfl; cases separates
  have notQuote : c ≠ '"' := by rintro rfl; cases separates
  simp [feed, notBackslash, notQuote, separates, outside, after, finish]

theorem scan_backslashes (count : Nat) :
    scanner.scan (List.replicate count '\\') = { scanner with pending := scanner.pending + count } := by
  induction count generalizing scanner with
  | zero => rfl
  | succ count ih =>
    rw [List.replicate_succ, scan_cons, ih]
    simp [feed, Nat.add_comm, Nat.add_left_comm]

/-- An odd run before a quote makes the quote literal. -/
theorem scan_escaped_quote (settled : scanner.pending = 0) (count : Nat) (rest : List Char) :
    scanner.scan (List.replicate (2 * count + 1) '\\' ++ '"' :: rest) =
      Scanner.scan { scanner with word := some (scanner.text ++ List.replicate count '\\' ++ ['"']) } rest := by
  rw [scan_append, scan_backslashes, scan_cons]
  have half : (2 * count + 1) / 2 = count := by omega
  have odd : (2 * count + 1) % 2 = 1 := by omega
  simp [feed, settled, text, half, odd]

/-- An even run before a quote leaves the quote to open or close. -/
theorem scan_toggle (settled : scanner.pending = 0) (count : Nat) (rest : List Char) :
    scanner.scan (List.replicate (2 * count) '\\' ++ '"' :: rest) =
      Scanner.scan { scanner with
        quoted := !scanner.quoted, word := some (scanner.text ++ List.replicate count '\\') } rest := by
  rw [scan_append, scan_backslashes, scan_cons]
  have half : 2 * count / 2 = count := by omega
  have even : 2 * count % 2 = 0 := by omega
  simp [feed, settled, text, half, even]

theorem scan_plain (settled : scanner.pending = 0) (count : Nat) {c : Char} (notBackslash : c ≠ '\\')
    (notQuote : c ≠ '"') (inside : blank c = true → scanner.quoted = true) (rest : List Char) :
    scanner.scan (List.replicate count '\\' ++ c :: rest) =
      Scanner.scan { scanner with word := some (scanner.text ++ List.replicate count '\\' ++ [c]) } rest := by
  rw [scan_append, scan_backslashes, scan_cons]
  have stays : ¬ (blank c = true ∧ scanner.quoted = false) := by
    rintro ⟨separates, outside⟩
    rw [inside separates] at outside
    cases outside
  simp [feed, notBackslash, notQuote, stays, settled, text]

theorem scan_blank (settled : scanner.pending = 0) (outside : scanner.quoted = false) (count : Nat) {c : Char}
    (separates : blank c = true) (rest : List Char) :
    scanner.scan (List.replicate count '\\' ++ c :: rest) =
      (after { scanner with pending := count }.finish {}).scan rest := by
  have outside' : { scanner with pending := scanner.pending + count }.quoted = false := outside
  rw [scan_append, scan_backslashes, scan_cons, feed_blank outside' separates, settled, Nat.zero_add]

end Scanner

/-- A blank outside quotes splits the text: what stands before it and what stands
after it are read independently. -/
theorem arguments_append (first second : List Char) (outside : (scan {} first).quoted = false) :
    arguments (first ++ ' ' :: second) = arguments first ++ arguments second := by
  unfold arguments
  rw [scan_append, scan_cons, feed_blank outside blank_space, scan_after, finish_after]

@[simp] theorem arguments_nil : arguments [] = [] := rfl

/-- The pieces of a text between its blanks, continuing an open word. -/
def words (word : Option (List Char)) : List Char → List (List Char)
  | [] => word.toList
  | c :: text => if blank c then word.toList ++ words none text else words (some (word.getD [] ++ [c])) text

theorem words_of_solid (prior text : List Char) (solid : ∀ c ∈ text, blank c = false) :
    words (some prior) text = [prior ++ text] := by
  induction text generalizing prior with
  | nil => simp [words]
  | cons c text ih =>
    have plain := solid c (by simp)
    simp [words, plain, ih (prior ++ [c]) (fun c member => solid c (by simp [member]))]

theorem words_solid {text : List Char} (solid : ∀ c ∈ text, blank c = false) (some_text : text ≠ []) :
    words none text = [text] := by
  cases text with
  | nil => exact absurd rfl some_text
  | cons c text =>
    have plain := solid c (by simp)
    have rest : ∀ d ∈ text, blank d = false := fun d member => solid d (List.mem_cons_of_mem c member)
    rw [words, plain]
    exact words_of_solid [c] text rest

theorem words_nonempty (prior text : List Char) : 1 ≤ (words (some prior) text).length := by
  induction text generalizing prior with
  | nil => simp [words]
  | cons c text ih =>
    unfold words
    split
    · simp
    · exact ih _

/-- A word closed by a blank, and a last character that is not one, make two pieces. -/
theorem words_split (prior text : List Char) {last : Char} (ends : text.getLast? = some last)
    (plain : blank last = false) (separated : ∃ c ∈ text, blank c = true) :
    2 ≤ (words (some prior) text).length := by
  have opens : ∀ text : List Char, text.getLast? = some last → 1 ≤ (words none text).length := by
    intro text
    induction text with
    | nil => intro impossible; cases impossible
    | cons c text ih =>
      intro ends
      unfold words
      split
      next separates =>
        cases text with
        | nil =>
          obtain rfl : c = last := by simpa using ends
          rw [plain] at separates
          cases separates
        | cons d text => simpa using ih (by simpa using ends)
      next => exact words_nonempty _ _
  induction text generalizing prior with
  | nil => cases ends
  | cons c text ih =>
    cases text with
    | nil =>
      obtain rfl : c = last := by simpa using ends
      obtain ⟨c', member, separates⟩ := separated
      obtain rfl := List.mem_singleton.mp member
      rw [plain] at separates
      cases separates
    | cons d text =>
      have ends' : (d :: text).getLast? = some last := by simpa using ends
      rw [words]
      split
      next => simpa using opens (d :: text) ends'
      next solid =>
        refine ih _ ends' ?_
        obtain ⟨c', member, separates⟩ := separated
        rcases List.mem_cons.mp member with rfl | member
        · exact absurd separates solid
        · exact ⟨c', member, separates⟩

end ExPTY.Argv
