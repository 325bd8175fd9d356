import ExPTY.Proofs.CommandLineIsolation

/-! Which argument lists survive the round trip through the command line. An argument
that already begins and ends with a quote is left unquoted although its quotes are
escaped like all others, so its blanks reach the parser bare. -/

namespace ExPTY.Proofs.CommandLineRoundTrip
open Argv Scanner CommandLineEncoding CommandLineIsolation

/-- An argument with its own enclosing quotes and a blank. -/
def EnclosedBlank (arg : List Char) : Prop :=
  arg.head? = some '"' ∧ arg.getLast? = some '"' ∧ ∃ c ∈ arg, blank c = true

variable {graphemes : Graphemes} {arg : List Char}

private theorem first_grapheme (single : SingleCodePoints graphemes arg) :
    graphemes.string_at arg 0 = arg.head?.map fun c => [c] := by
  simp [Graphemes.string_at, single.split, List.head?_eq_getElem?]

/-- The quoting decision of the source, with its two quote tests put together. -/
theorem quote_iff (single : SingleCodePoints graphemes arg) :
    quote? graphemes arg = true ↔ arg = [] ∨ (∃ c ∈ arg, blank c = true) ∧ ¬ EnclosedBlank arg := by
  by_cases empty : arg = []
  · simp [quote?, empty]
  · have positive : 0 < graphemes.string_length arg := by
      have clusters := List.length_pos_iff.mpr (split_ne_nil graphemes empty)
      simp only [Graphemes.string_length]
      omega
    obtain ⟨c, tail, rfl⟩ := List.exists_cons_of_ne_nil empty
    rw [EnclosedBlank, exists_blank, quote?, first_grapheme single, ends_with_quote]
    by_cases opens : c = '"'
    · subst c
      by_cases closes : ('"' :: tail).getLast? = some '"'
      · simp [positive, closes]
        exact fun separated none_first => separated.resolve_left none_first
      · simp [positive, closes]
    · have different : (some [c] != some ['"']) = true := by simp [opens]
      by_cases closes : (c :: tail).getLast? = some '"' <;> simp [positive, opens, different, closes]

theorem arguments_kept (single : SingleCodePoints graphemes arg) (open_blanks : ¬ EnclosedBlank arg) :
    arguments (encoding graphemes arg) = [arg] := by
  cases quote : quote? graphemes arg with
  | true =>
    rw [arguments, arguments_quoted single quote]
    rfl
  | false =>
    rw [(arguments_unquoted single quote).2.2]
    have decision := mt (quote_iff single).mpr (by simp [quote])
    simp only [not_or, not_and] at decision
    obtain ⟨some_text, solid⟩ := decision
    apply words_solid _ some_text
    intro c member
    rw [← Bool.not_eq_true]
    intro separates
    exact solid ⟨c, member, separates⟩ open_blanks

theorem arguments_split (single : SingleCodePoints graphemes arg) (enclosed : EnclosedBlank arg) :
    2 ≤ (arguments (encoding graphemes arg)).length := by
  obtain ⟨opens, closes, separated⟩ := enclosed
  have unquoted : quote? graphemes arg = false := by
    rw [← Bool.not_eq_true, quote_iff single]
    rintro (rfl | ⟨_, open_blanks⟩)
    · cases opens
    · exact open_blanks ⟨opens, closes, separated⟩
  rw [(arguments_unquoted single unquoted).2.2]
  obtain ⟨tail, rfl⟩ := List.head?_eq_some_iff.mp opens
  obtain ⟨c, member, separates⟩ := separated
  have inside : c ∈ tail := by
    rcases List.mem_cons.mp member with rfl | inside
    · cases separates
    · exact inside
  have ends : tail.getLast? = some '"' := by
    cases tail with
    | nil => cases inside
    | cons d tail => simpa using closes
  exact words_split ['"'] tail ends blank_quote ⟨c, inside, separates⟩

private theorem arguments_nonempty (single : SingleCodePoints graphemes arg) :
    1 ≤ (arguments (encoding graphemes arg)).length := by
  by_cases enclosed : EnclosedBlank arg
  · exact Nat.le_of_succ_le (arguments_split single enclosed)
  · simp [arguments_kept single enclosed]

private theorem flatMap_longer {α β : Type} (f : α → List β) (items : List α) (filled : ∀ item ∈ items, 1 ≤ (f item).length) :
    items.length ≤ (items.flatMap f).length ∧ ∀ item ∈ items, (f item).length + items.length ≤ (items.flatMap f).length + 1 := by
  induction items with
  | nil => simp
  | cons item items ih =>
    obtain ⟨total, each⟩ := ih fun item member => filled item (by simp [member])
    have first := filled item (by simp)
    simp only [List.flatMap_cons, List.length_append, List.length_cons]
    refine ⟨by omega, ?_⟩
    intro other member
    rcases List.mem_cons.mp member with rfl | member
    · omega
    · have bound := each other member
      omega

/-- The parser gives back the program and its arguments exactly when none of the
arguments both carries its own enclosing quotes and contains a blank. -/
theorem round_trip_iff (graphemes : Graphemes) (file : List Char) (args : List (List Char))
    (plain : '"' ∉ file) (last : file.getLast? ≠ some '\\') (single : ∀ arg ∈ args, SingleCodePoints graphemes arg) :
    commandLineToArgvW (args_to_command_line graphemes file args) = file :: args ↔ ∀ arg ∈ args, ¬ EnclosedBlank arg := by
  rw [command_line_arguments plain last args single, List.cons.injEq]
  constructor
  · rintro ⟨_, same⟩ arg member enclosed
    have split := arguments_split (single arg member) enclosed
    have longer := (flatMap_longer (fun arg => arguments (encoding graphemes arg)) args
      (fun arg member => arguments_nonempty (single arg member))).2 arg member
    rw [same] at longer
    omega
  · intro kept
    refine ⟨rfl, ?_⟩
    have each : ∀ arg ∈ args, arguments (encoding graphemes arg) = [arg] :=
      fun arg member => arguments_kept (single arg member) (kept arg member)
    rw [List.flatMap_congr each, List.flatMap_singleton']

theorem round_trip_iff_plain :
    commandLineToArgvW (args_to_command_line .codePoints "cmd.exe".toList ["".toList, "a b\\".toList, "\"".toList]) =
      ["cmd.exe".toList, "".toList, "a b\\".toList, "\"".toList] :=
  (round_trip_iff .codePoints "cmd.exe".toList _ (by decide) (by decide) (fun arg _ => single_codePoints arg)).mpr
    (by simp [EnclosedBlank, blank])

/-- `"a b"` with its quotes goes in as one argument and comes out as two. -/
theorem enclosed_argument_split :
    commandLineToArgvW (args_to_command_line .codePoints "cmd.exe".toList ["\"a b\"".toList]) =
      ["cmd.exe".toList, "\"a".toList, "b\"".toList] ∧
    commandLineToArgvW (args_to_command_line .codePoints "cmd.exe".toList ["\"a b\"".toList]) ≠
      ["cmd.exe".toList, "\"a b\"".toList] := by
  decide

end ExPTY.Proofs.CommandLineRoundTrip
