import ExPTY.Proofs.CommandLineEncoding

/-! Each encoded argument takes the documented parser from outside quotes back to
outside quotes, so the space after it ends the argument. The invariant of both scans
is that the parser holds no backslash while the encoder holds some back. -/

namespace ExPTY.Proofs.CommandLineIsolation
open Argv Scanner CommandLineEncoding

def SingleCodePoints (graphemes : Graphemes) (text : List Char) : Prop :=
  ∀ cluster ∈ graphemes.split text, cluster.length = 1

private theorem singletons (clusters : List (List Char)) (single : ∀ cluster ∈ clusters, cluster.length = 1) :
    clusters = clusters.flatten.map fun c => [c] := by
  induction clusters with
  | nil => rfl
  | cons cluster rest ih =>
    obtain ⟨c, rfl⟩ := List.length_eq_one_iff.mp (single cluster (by simp))
    rw [List.flatten_cons, List.singleton_append, List.map_cons,
      ← ih (fun cluster member => single cluster (by simp [member]))]

theorem SingleCodePoints.split {graphemes : Graphemes} {text : List Char} (single : SingleCodePoints graphemes text) :
    graphemes.split text = text.map fun c => [c] := by
  have same := singletons _ single
  rwa [graphemes.flatten_split] at same

theorem single_codePoints (text : List Char) : SingleCodePoints .codePoints text := by
  simp [SingleCodePoints, Graphemes.codePoints]

/-- Inside quotes the whole argument ends up in the open word, and the closing quote
is read as one. -/
theorem scan_quoted (scanner : Scanner) (settled : scanner.pending = 0) (inside : scanner.quoted = true)
    (count : Nat) (arg : List Char) :
    scanner.scan ((emit count (arg.map fun c => [c])).2 ++
        (List.replicate (2 * (emit count (arg.map fun c => [c])).1) '\\' ++ ['"'])) =
      { scanner with quoted := false, word := some (scanner.text ++ List.replicate count '\\' ++ arg) } := by
  induction arg generalizing count scanner with
  | nil =>
    rw [List.map_nil, emit, List.nil_append, scan_toggle settled count]
    simp [inside]
  | cons c arg ih =>
    rw [List.map_cons]
    by_cases backslash : c = '\\'
    · subst c
      rw [emit_backslash, ih scanner settled inside (count + 1)]
      simp [List.replicate_succ']
    · by_cases quote : c = '"'
      · subst c
        simp only [emit_quote, List.append_assoc, List.cons_append]
        rw [scan_escaped_quote settled]
        have rest := ih { scanner with word := some (scanner.text ++ List.replicate count '\\' ++ ['"']) } settled inside 0
        simpa [text] using rest
      · simp only [emit_plain count backslash quote, List.append_assoc, List.cons_append]
        rw [scan_plain settled count backslash quote (fun _ => inside)]
        have rest := ih { scanner with word := some (scanner.text ++ List.replicate count '\\' ++ [c]) } settled inside 0
        simpa [text] using rest

/-- The open word together with the backslashes the encoder still holds back. -/
def held (scanner : Scanner) (count : Nat) : Option (List Char) := { scanner with pending := count }.literal

theorem held_zero (scanner : Scanner) : held scanner 0 = scanner.word := rfl

theorem held_text (scanner : Scanner) (count : Nat) :
    (held scanner count).getD [] = scanner.text ++ List.replicate count '\\' := by
  by_cases none_held : count = 0 <;> simp [held, literal, text, none_held]

/-- Outside quotes the blanks of the argument cut it into words. -/
theorem scan_unquoted (scanner : Scanner) (settled : scanner.pending = 0) (outside : scanner.quoted = false)
    (count : Nat) (arg : List Char) :
    let last := scanner.scan ((emit count (arg.map fun c => [c])).2 ++
      List.replicate (emit count (arg.map fun c => [c])).1 '\\')
    last.quoted = false ∧ last.pending = (emit count (arg.map fun c => [c])).1 ∧
      last.finish = scanner.done ++ words (held scanner count) arg := by
  induction arg generalizing count scanner with
  | nil =>
    simp only [List.map_nil, emit, List.nil_append, scan_backslashes, settled, Nat.zero_add]
    exact ⟨outside, trivial, rfl⟩
  | cons c arg ih =>
    simp only [List.map_cons]
    rw [words, held_text]
    by_cases backslash : c = '\\'
    · subst c
      rw [emit_backslash]
      simpa [held, literal, text, List.replicate_succ'] using ih scanner settled outside (count + 1)
    · by_cases quote : c = '"'
      · subst c
        simp only [emit_quote, List.append_assoc, List.cons_append]
        rw [scan_escaped_quote settled]
        simpa [held_zero] using ih { scanner with word := some (scanner.text ++ List.replicate count '\\' ++ ['"']) }
          settled outside 0
      · simp only [emit_plain count backslash quote, List.append_assoc, List.cons_append]
        cases separates : blank c with
        | false =>
          rw [scan_plain settled count backslash quote (fun blank => by rw [separates] at blank; cases blank)]
          simpa [held_zero] using ih { scanner with word := some (scanner.text ++ List.replicate count '\\' ++ [c]) }
            settled outside 0
        | true =>
          rw [scan_blank settled outside count separates]
          obtain ⟨quoted, pending, found⟩ := ih (after { scanner with pending := count }.finish {}) rfl rfl 0
          refine ⟨quoted, pending, found.trans ?_⟩
          simp [held, after, finish, literal]

variable {graphemes : Graphemes} {arg : List Char}

theorem arguments_quoted (single : SingleCodePoints graphemes arg) (quote : quote? graphemes arg = true) :
    scan {} (encoding graphemes arg) = { word := some arg } := by
  rw [encoding_eq]
  simp only [encoded, quote, single.split, ite_true]
  rw [List.append_assoc, List.singleton_append, scan_cons]
  exact scan_quoted (feed {} '"') rfl rfl 0 arg

theorem arguments_unquoted (single : SingleCodePoints graphemes arg) (quote : quote? graphemes arg = false) :
    (scan {} (encoding graphemes arg)).quoted = false ∧
      (scan {} (encoding graphemes arg)).pending = (emit 0 (arg.map fun c => [c])).1 ∧
      arguments (encoding graphemes arg) = words none arg := by
  have scanned := scan_unquoted {} rfl rfl 0 arg
  rw [arguments, encoding_eq]
  simpa [encoded, quote, single.split, held_zero] using scanned

theorem encoding_outside (single : SingleCodePoints graphemes arg) :
    (scan {} (encoding graphemes arg)).quoted = false := by
  cases quote : quote? graphemes arg with
  | true => rw [arguments_quoted single quote]
  | false => exact (arguments_unquoted single quote).1

/-- Backslashes stay undecided only after an unquoted argument that ends in one. -/
theorem encoding_pending (single : SingleCodePoints graphemes arg)
    (undecided : (scan {} (encoding graphemes arg)).pending ≠ 0) :
    quote? graphemes arg = false ∧ arg.getLast? = some '\\' := by
  cases quote : quote? graphemes arg with
  | true =>
    rw [arguments_quoted single quote] at undecided
    contradiction
  | false =>
    refine ⟨rfl, ?_⟩
    rw [(arguments_unquoted single quote).2.1] at undecided
    by_cases empty : arg = []
    · subst arg
      exact absurd rfl undecided
    · apply Classical.byContradiction
      intro last
      apply undecided
      apply emit_trailing
      · simpa [List.getLast?_map] using last
      · simpa using empty

private theorem no_quote_cluster {file : List Char} (plain : '"' ∉ file) : ['"'] ∉ graphemes.split file := by
  intro member
  apply plain
  rw [← graphemes.flatten_split file]
  exact List.mem_flatten.mpr ⟨_, member, by simp⟩

private theorem last_cluster {file : List Char} (last : file.getLast? ≠ some '\\') :
    (graphemes.split file).getLast? ≠ some ['\\'] := by
  intro same
  apply last
  obtain ⟨front, clusters⟩ := List.getLast?_eq_some_iff.mp same
  rw [← graphemes.flatten_split file, clusters]
  simp

private theorem quote_file {file : List Char} (plain : '"' ∉ file) :
    quote? graphemes file = true ↔ file = [] ∨ ∃ c ∈ file, blank c = true := by
  have final : ends_with_quote file = false := by
    rw [ends_with_quote, beq_eq_false_iff_ne]
    intro same
    exact plain (List.mem_of_getLast? same)
  rw [exists_blank]
  by_cases empty : file = []
  · simp [quote?, empty]
  · have positive : 0 < graphemes.string_length file := by
      have clusters := List.length_pos_iff.mpr (split_ne_nil graphemes empty)
      simp only [Graphemes.string_length]
      omega
    simp [quote?, final, empty, positive]

private theorem encoding_file {file : List Char} (plain : '"' ∉ file) (last : file.getLast? ≠ some '\\') :
    encoding graphemes file = if quote? graphemes file then ['"'] ++ file ++ ['"'] else file := by
  have written : (emit 0 (graphemes.split file)).1 = 0 ∧ (emit 0 (graphemes.split file)).2 = file := by
    have verbatim := emit_verbatim 0 (graphemes.split file) (no_quote_cluster plain)
    rw [graphemes.flatten_split] at verbatim
    by_cases empty : file = []
    · subst file
      simp [emit]
    · have none_held := emit_trailing 0 _ (last_cluster last) (split_ne_nil graphemes empty)
      rw [none_held] at verbatim
      exact ⟨none_held, by simpa using verbatim⟩
  rw [encoding_eq]
  simp only [encoded, written.1, written.2]
  simp

/-- The program name is read back, whatever follows the blank after it. -/
theorem program_name {file : List Char} (plain : '"' ∉ file) (last : file.getLast? ≠ some '\\') (rest : List Char)
    (separated : rest.head? = none ∨ rest.head? = some ' ') :
    splitProgram (encoding graphemes file ++ rest) = (file, rest) := by
  rw [encoding_file plain last]
  split
  next _ =>
    have name : ∀ c ∈ file, (c != '"') = true := by
      intro c member
      rw [bne_iff_ne]
      rintro rfl
      exact plain member
    simp only [List.append_assoc, List.cons_append, List.nil_append]
    rw [splitProgram_quoted, List.takeWhile_append_of_pos name, List.dropWhile_append_of_pos name]
    simp
  next unquoted =>
    rw [quote_file plain] at unquoted
    simp only [not_or, not_exists, not_and, Bool.not_eq_true] at unquoted
    obtain ⟨some_text, solid⟩ := unquoted
    have name : ∀ c ∈ file, (!blank c) = true := fun c member => by simp [solid c member]
    have stops : rest.takeWhile (!blank ·) = [] ∧ rest.dropWhile (!blank ·) = rest := by
      cases rest with
      | nil => exact ⟨rfl, rfl⟩
      | cons c rest =>
        obtain impossible | same := separated
        · cases impossible
        · obtain rfl : c = ' ' := by simpa using same
          simp
    cases file with
    | nil => contradiction
    | cons c file =>
      have notQuote : c ≠ '"' := by
        intro same
        subst same
        exact plain List.mem_cons_self
      rw [List.cons_append, splitProgram_plain notQuote, ← List.cons_append, List.takeWhile_append_of_pos name,
        List.dropWhile_append_of_pos name, stops.1, stops.2, List.append_nil]

theorem arguments_joined (text : List Char) (outside : (scan {} text).quoted = false) (args : List (List Char))
    (single : ∀ arg ∈ args, SingleCodePoints graphemes arg) :
    arguments (text ++ args.flatMap fun arg => ' ' :: encoding graphemes arg) =
      arguments text ++ args.flatMap fun arg => arguments (encoding graphemes arg) := by
  induction args generalizing text with
  | nil => simp
  | cons arg args ih =>
    rw [List.flatMap_cons, List.cons_append, arguments_append text _ outside,
      ih _ (encoding_outside (single arg (by simp))) (fun arg member => single arg (by simp [member])), List.flatMap_cons]

theorem command_line_arguments {file : List Char} (plain : '"' ∉ file) (last : file.getLast? ≠ some '\\')
    (args : List (List Char)) (single : ∀ arg ∈ args, SingleCodePoints graphemes arg) :
    commandLineToArgvW (args_to_command_line graphemes file args) =
      file :: args.flatMap fun arg => arguments (encoding graphemes arg) := by
  have separated : (args.flatMap fun arg => ' ' :: encoding graphemes arg).head? = none ∨
      (args.flatMap fun arg => ' ' :: encoding graphemes arg).head? = some ' ' := by
    cases args with
    | nil => exact Or.inl rfl
    | cons arg args => exact Or.inr rfl
  rw [commandLineToArgvW, command_line_eq, program_name plain last _ separated]
  have joined := arguments_joined [] rfl args single
  rw [List.nil_append, arguments_nil, List.nil_append] at joined
  rw [joined]

/-- The whole command line is read as the program and, in order, what each argument's
own encoding is read as. Every encoding ends outside quotes, and the separating space
settles the backslashes that an unquoted argument may end in. -/
theorem arguments_isolated (graphemes : Graphemes) (file : List Char) (args : List (List Char))
    (plain : '"' ∉ file) (last : file.getLast? ≠ some '\\') (single : ∀ arg ∈ args, SingleCodePoints graphemes arg) :
    commandLineToArgvW (args_to_command_line graphemes file args) =
        file :: args.flatMap (fun arg => arguments (encoding graphemes arg)) ∧
      ∀ arg ∈ args,
        (scan {} (encoding graphemes arg)).quoted = false ∧
        ((scan {} (encoding graphemes arg)).pending ≠ 0 → quote? graphemes arg = false ∧ arg.getLast? = some '\\') ∧
        (scan {} (encoding graphemes arg)).feed ' ' = after (arguments (encoding graphemes arg)) {} := by
  refine ⟨command_line_arguments plain last args single, ?_⟩
  intro arg member
  have outside := encoding_outside (single arg member)
  exact ⟨outside, encoding_pending (single arg member), feed_blank outside blank_space⟩

theorem arguments_isolated_enclosed :
    commandLineToArgvW (args_to_command_line .codePoints "cmd".toList ["\"a b\"".toList, "c".toList]) =
      ["cmd".toList, "\"a".toList, "b\"".toList, "c".toList] :=
  (arguments_isolated .codePoints "cmd".toList ["\"a b\"".toList, "c".toList] (by decide) (by decide)
    (fun arg _ => single_codePoints arg)).1.trans (by decide)

/-- The encoding of `a\` is `a\`, after which the parser still holds a backslash. -/
theorem trailing_backslash_undecided :
    ¬ ∀ (graphemes : Graphemes) (file : List Char) (args : List (List Char)),
      '"' ∉ file → file.getLast? ≠ some '\\' → (∀ arg ∈ args, SingleCodePoints graphemes arg) →
      commandLineToArgvW (args_to_command_line graphemes file args) =
          file :: args.flatMap (fun arg => arguments (encoding graphemes arg)) ∧
        ∀ arg ∈ args,
          (scan {} (encoding graphemes arg)).quoted = false ∧ (scan {} (encoding graphemes arg)).pending = 0 := by
  intro claim
  have settled := ((claim .codePoints [] [['a', '\\']] (by decide) (by decide)
    (fun arg _ => single_codePoints arg)).2 _ (List.mem_singleton.mpr rfl)).2
  revert settled
  decide

end ExPTY.Proofs.CommandLineIsolation
