import ExPTY.Argv
import ExPTY.CommandLine

/-! What `args_to_command_line` writes, without its accumulators: each argument adds
its own encoding after a space, and an encoding is the clusters of the argument with
the held-back backslashes in front of whatever ends their run. -/

namespace ExPTY.Proofs.CommandLineEncoding

private theorem repeat_text_impl_eq (c : Char) (count : Nat) (result : List (List Char)) :
    repeat_text_impl [c] count result = List.replicate count c ++ result.flatten := by
  induction count generalizing result with
  | zero => rfl
  | succ count ih =>
    rw [repeat_text_impl, ih, List.flatten_cons, List.replicate_succ', List.append_assoc]

@[simp] theorem repeat_text_eq (c : Char) (count : Nat) : repeat_text [c] count = List.replicate count c := by
  rw [repeat_text, if_neg (by omega), Int.toNat_natCast, repeat_text_impl_eq, List.flatten_nil, List.append_nil]

variable (graphemes : Graphemes)

@[simp] theorem split_nil : graphemes.split [] = [] := by
  cases clusters : graphemes.split [] with
  | nil => rfl
  | cons cluster rest =>
    have flat := graphemes.flatten_split []
    rw [clusters, List.flatten_cons, List.append_eq_nil_iff] at flat
    exact absurd (by simp [clusters, flat.1]) (graphemes.nonempty [])

theorem split_ne_nil {arg : List Char} (some_text : arg ≠ []) : graphemes.split arg ≠ [] := by
  intro empty
  have flat := graphemes.flatten_split arg
  rw [empty] at flat
  exact some_text flat.symm

private theorem range_positions (arg : List Char) (some_text : arg ≠ []) :
    (range 0 (graphemes.string_length arg - 1)).map (graphemes.string_at arg) = (graphemes.split arg).map some := by
  have positive := List.length_pos_iff.mpr (split_ne_nil graphemes some_text)
  have upward : (0 : Int) ≤ graphemes.string_length arg - 1 := by
    simp only [Graphemes.string_length]
    omega
  have size : (graphemes.string_length arg - 1 - 0 + 1).toNat = (graphemes.split arg).length := by
    simp only [Graphemes.string_length]
    omega
  rw [range, if_pos upward, size, List.map_map]
  apply List.ext_getElem (by simp)
  intro index inside inside'
  have notNegative : ¬ ((index : Int) < 0) := by omega
  simp [Graphemes.string_at, notNegative]

/-- The reduction over positions is a reduction over the clusters. The empty argument
is walked at positions 0 and -1, which adds nothing. -/
theorem reduction_eq (arg result : List Char) :
    (range 0 (graphemes.string_length arg - 1)).foldl (fun state index => escape state (graphemes.string_at arg index)) (0, result) =
      (graphemes.split arg).foldl (fun state cluster => escape state (some cluster)) (0, result) := by
  by_cases empty : arg = []
  · subst arg
    have positions : range 0 (graphemes.string_length [] - 1) = [0, -1] := by
      simp [Graphemes.string_length, range]
      decide
    rw [positions]
    simp [Graphemes.string_at, Graphemes.string_length, escape, repeat_text, repeat_text_impl]
  · rw [← List.foldl_map, range_positions graphemes arg empty, List.foldl_map]

/-- The backslashes still held back after the clusters, and the text written so far. -/
def emit : Nat → List (List Char) → Nat × List Char
  | count, [] => (count, [])
  | count, cluster :: rest =>
    if cluster = ['\\'] then emit (count + 1) rest
    else if cluster = ['"'] then
      ((emit 0 rest).1, List.replicate (2 * count + 1) '\\' ++ ['"'] ++ (emit 0 rest).2)
    else ((emit 0 rest).1, List.replicate count '\\' ++ cluster ++ (emit 0 rest).2)

theorem emit_backslash (count : Nat) (rest : List (List Char)) :
    emit count (['\\'] :: rest) = emit (count + 1) rest := by
  simp [emit]

theorem emit_quote (count : Nat) (rest : List (List Char)) :
    emit count (['"'] :: rest) = ((emit 0 rest).1, List.replicate (2 * count + 1) '\\' ++ '"' :: (emit 0 rest).2) := by
  simp [emit]

theorem emit_cluster (count : Nat) {cluster : List Char} (notBackslash : cluster ≠ ['\\']) (notQuote : cluster ≠ ['"'])
    (rest : List (List Char)) :
    emit count (cluster :: rest) = ((emit 0 rest).1, List.replicate count '\\' ++ (cluster ++ (emit 0 rest).2)) := by
  rw [emit, if_neg notBackslash, if_neg notQuote, List.append_assoc]

theorem emit_plain (count : Nat) {c : Char} (notBackslash : c ≠ '\\') (notQuote : c ≠ '"') (rest : List (List Char)) :
    emit count ([c] :: rest) = ((emit 0 rest).1, List.replicate count '\\' ++ c :: (emit 0 rest).2) := by
  rw [emit_cluster count (by simpa using notBackslash) (by simpa using notQuote), List.singleton_append]

theorem escape_some (count : Nat) (result cluster : List Char) :
    escape (count, result) (some cluster) =
      if cluster = ['\\'] then (((count + 1 : Nat) : Int), result)
      else if cluster = ['"'] then (0, result ++ List.replicate (2 * count + 1) '\\' ++ ['"'])
      else (0, result ++ List.replicate count '\\' ++ cluster) := by
  by_cases backslash : cluster = ['\\']
  · subst cluster
    simp [escape]
  · by_cases quote : cluster = ['"']
    · subst cluster
      have odd : (count : Int) * 2 + 1 = ((2 * count + 1 : Nat) : Int) := by omega
      simp only [escape, odd, repeat_text_eq, backslash, ite_true, ite_false]
    · simp only [backslash, quote, ite_false, escape]
      split
      next same => cases same; contradiction
      next same => cases same; contradiction
      next => simp

theorem escape_clusters (count : Nat) (result : List Char) (clusters : List (List Char)) :
    clusters.foldl (fun state cluster => escape state (some cluster)) ((count : Int), result) =
      (((emit count clusters).1 : Int), result ++ (emit count clusters).2) := by
  induction clusters generalizing count result with
  | nil => simp [emit]
  | cons cluster rest ih =>
    rw [List.foldl_cons, escape_some, emit]
    split
    · exact ih _ _
    · split
      · exact (ih 0 _).trans (by simp)
      · exact (ih 0 _).trans (by simp)

def encoded (arg : List Char) : List Char :=
  let (count, written) := emit 0 (graphemes.split arg)
  if quote? graphemes arg then ['"'] ++ written ++ (List.replicate (2 * count) '\\' ++ ['"'])
  else written ++ List.replicate count '\\'

theorem append_arg_eq (arg result : List Char) : append_arg graphemes arg result = result ++ encoded graphemes arg := by
  have even (count : Nat) : (count : Int) * 2 = ((2 * count : Nat) : Int) := by omega
  have start (result : List Char) := escape_clusters 0 result (graphemes.split arg)
  simp only [Int.ofNat_zero] at start
  simp only [append_arg, encoded, reduction_eq, start, even, repeat_text_eq]
  split <;> simp

theorem encoding_eq (arg : List Char) : encoding graphemes arg = encoded graphemes arg := by
  simp [encoding, args_to_command_line_impl, append_arg_eq]

theorem later_args (args : List (List Char)) (index : Nat) (result : List Char) :
    args_to_command_line_impl graphemes args (index + 1) result =
      result ++ args.flatMap fun arg => ' ' :: encoding graphemes arg := by
  induction args generalizing index result with
  | nil => simp [args_to_command_line_impl]
  | cons arg args ih => simp [args_to_command_line_impl, ih, append_arg_eq, encoding_eq]

theorem command_line_eq (file : List Char) (args : List (List Char)) :
    args_to_command_line graphemes file args =
      encoding graphemes file ++ args.flatMap fun arg => ' ' :: encoding graphemes arg := by
  simp [args_to_command_line, args_to_command_line_impl, append_arg_eq, later_args, encoding_eq]

/-- Clusters without a quote come out as they are, up to the backslashes still held back. -/
theorem emit_verbatim (count : Nat) (clusters : List (List Char)) (plain : ['"'] ∉ clusters) :
    (emit count clusters).2 ++ List.replicate (emit count clusters).1 '\\' =
      List.replicate count '\\' ++ clusters.flatten := by
  induction clusters generalizing count with
  | nil => simp [emit]
  | cons cluster rest ih =>
    have notQuote : cluster ≠ ['"'] := fun same => plain (by simp [same])
    have plain : ['"'] ∉ rest := fun member => plain (by simp [member])
    unfold emit
    split
    next backslash => simp [ih (count + 1) plain, backslash, List.replicate_succ']
    next => simp [ih 0 plain]

theorem emit_trailing (count : Nat) (clusters : List (List Char)) (last : clusters.getLast? ≠ some ['\\'])
    (some_cluster : clusters ≠ []) : (emit count clusters).1 = 0 := by
  induction clusters generalizing count with
  | nil => contradiction
  | cons cluster rest ih =>
    cases rest with
    | nil =>
      have notBackslash : cluster ≠ ['\\'] := fun same => last (by simp [same])
      by_cases quote : cluster = ['"'] <;> simp [emit, notBackslash, quote]
    | cons next rest =>
      have last' : (next :: rest).getLast? ≠ some ['\\'] := by simpa using last
      unfold emit
      split
      · exact ih _ last' (by simp)
      · split <;> exact ih _ last' (by simp)

end ExPTY.Proofs.CommandLineEncoding
