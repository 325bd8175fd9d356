import ExPTY.Proofs.CommandLineEncoding
import Mathlib.Data.List.SplitBy

/-! Which double quotes of an argument the encoding escapes. The loop compares whole
grapheme clusters with a quote and with a backslash, so a code point that joins one of
them hides it: the quote is then written as it stands. -/

namespace ExPTY.Proofs.QuoteEscaping
open CommandLineEncoding

/-- `out` is `arg` with backslashes added in front of other code points and at the end,
where each double quote after `n` backslashes stands after exactly `2 * n + 1`. -/
inductive Escapes : List Char → List Char → Prop
  | done {n m : Nat} (kept : n ≤ m) : Escapes (List.replicate n '\\') (List.replicate m '\\')
  | quote {arg out : List Char} (n : Nat) (rest : Escapes arg out) :
      Escapes (List.replicate n '\\' ++ '"' :: arg) (List.replicate (2 * n + 1) '\\' ++ '"' :: out)
  | other {c : Char} {arg out : List Char} {n m : Nat} (not_backslash : c ≠ '\\') (not_quote : c ≠ '"')
      (kept : n ≤ m) (rest : Escapes arg out) :
      Escapes (List.replicate n '\\' ++ c :: arg) (List.replicate m '\\' ++ c :: out)

/-- Every double quote is escaped, and without the enclosing quotes and the added
backslashes the encoding is the argument. -/
def Faithful (graphemes : Graphemes) (arg : List Char) : Prop :=
  ∃ body, encoding graphemes arg = (if quote? graphemes arg then '"' :: (body ++ ['"']) else body) ∧ Escapes arg body

/-- Each double quote is a cluster of its own, and so is each backslash of the run
before it; `loose` says that the run so far begins inside a longer cluster. -/
def apart (loose : Bool) : List (List Char) → Bool
  | [] => true
  | cluster :: rest =>
    if cluster = ['\\'] then apart loose rest
    else if cluster = ['"'] then !loose && apart false rest
    else !cluster.contains '"' && apart (cluster.getLast? == some '\\') rest

private theorem run_unique {c d : Char} {n m : Nat} {x y : List Char} (c_other : c ≠ '\\') (d_other : d ≠ '\\')
    (same : List.replicate n '\\' ++ c :: x = List.replicate m '\\' ++ d :: y) : n = m ∧ c = d ∧ x = y := by
  induction n generalizing m with
  | zero =>
    cases m with
    | zero => simpa using same
    | succ m => exact absurd (List.cons.inj same).1 c_other
  | succ n ih =>
    cases m with
    | zero => exact absurd (List.cons.inj same).1.symm d_other
    | succ m =>
      obtain ⟨sameRun, sameText⟩ := ih (List.cons.inj same).2
      exact ⟨by rw [sameRun], sameText⟩

private theorem run_ended {c : Char} {n m : Nat} {x : List Char} (c_other : c ≠ '\\') :
    List.replicate m '\\' ≠ List.replicate n '\\' ++ c :: x := by
  intro same
  have member : c ∈ List.replicate m '\\' := by rw [same]; simp
  exact c_other (List.eq_of_mem_replicate member)

/-- What is asked of the backslashes before the first code point that is none. -/
private theorem escapes_run {c : Char} (ends : c ≠ '\\') (n m : Nat) (arg out : List Char) :
    Escapes (List.replicate n '\\' ++ c :: arg) (List.replicate m '\\' ++ c :: out) ↔
      (if c = '"' then m = 2 * n + 1 else n ≤ m) ∧ Escapes arg out := by
  constructor
  · intro escapes
    generalize read : List.replicate n '\\' ++ c :: arg = source at escapes
    generalize wrote : List.replicate m '\\' ++ c :: out = target at escapes
    cases escapes with
    | done kept => exact absurd read.symm (run_ended ends)
    | quote n' rest =>
      obtain ⟨rfl, rfl, rfl⟩ := run_unique ends (by decide) read
      obtain ⟨rfl, -, rfl⟩ := run_unique ends ends wrote
      rw [if_pos rfl]
      exact ⟨rfl, rest⟩
    | other not_backslash not_quote kept rest =>
      obtain ⟨rfl, rfl, rfl⟩ := run_unique ends not_backslash read
      obtain ⟨rfl, -, rfl⟩ := run_unique ends ends wrote
      rw [if_neg not_quote]
      exact ⟨kept, rest⟩
  · intro ⟨backslashes, rest⟩
    split at backslashes
    next quote =>
      subst c
      subst m
      exact .quote n rest
    next other => exact .other ends other backslashes rest

/-- The backslashes at the end of a text that follows `held` of them. -/
private def trailing (held : Nat) : List Char → Nat
  | [] => held
  | c :: text => if c = '\\' then trailing (held + 1) text else trailing 0 text

private theorem trailing_pos (held : Nat) (text : List Char) :
    0 < trailing held text ↔ (text = [] ∧ 0 < held) ∨ text.getLast? = some '\\' := by
  induction text generalizing held with
  | nil => simp [trailing]
  | cons c text ih =>
    cases text with
    | nil => by_cases backslash : c = '\\' <;> simp [trailing, backslash]
    | cons d text =>
      rw [trailing, List.getLast?_cons_cons]
      split
      · simpa using ih (held + 1)
      · simpa using ih 0

/-- A cluster that is written as it stands keeps its code points, and nothing of it is escaped. -/
private theorem escapes_raw (held : Nat) (text arg out : List Char) :
    Escapes (List.replicate held '\\' ++ (text ++ arg)) (List.replicate held '\\' ++ (text ++ out)) ↔
      '"' ∉ text ∧ Escapes (List.replicate (trailing held text) '\\' ++ arg) (List.replicate (trailing held text) '\\' ++ out) := by
  induction text generalizing held with
  | nil => simp [trailing]
  | cons c text ih =>
    by_cases backslash : c = '\\'
    · subst c
      have longer (suffix : List Char) :
          List.replicate held '\\' ++ ('\\' :: text ++ suffix) = List.replicate (held + 1) '\\' ++ (text ++ suffix) := by
        simp [List.replicate_succ']
      rw [longer, longer, ih (held + 1)]
      simp [trailing]
    · by_cases quote : c = '"'
      · subst c
        rw [List.cons_append, List.cons_append, escapes_run backslash, if_pos rfl]
        have never : held ≠ 2 * held + 1 := by omega
        simp [never]
      · rw [List.cons_append, List.cons_append, escapes_run backslash, if_neg quote]
        have rest := ih 0
        simp only [List.replicate_zero, List.nil_append] at rest
        simp [trailing, backslash, Ne.symm quote, rest]

/-- `loose` backslashes of the run stand in the text already, `count` are held back. -/
private theorem emit_escapes {copies : Nat} (some_copy : 1 ≤ copies) (clusters : List (List Char)) (filled : [] ∉ clusters)
    (loose count : Nat) :
    Escapes (List.replicate (loose + count) '\\' ++ clusters.flatten)
        (List.replicate loose '\\' ++ ((emit count clusters).2 ++ List.replicate (copies * (emit count clusters).1) '\\')) ↔
      apart (decide (0 < loose)) clusters = true := by
  induction clusters generalizing loose count with
  | nil =>
    have kept : loose + count ≤ loose + copies * count := by
      have := Nat.le_mul_of_pos_left count some_copy
      omega
    simpa [emit, apart, List.replicate_append_replicate] using Escapes.done kept
  | cons cluster rest ih =>
    obtain ⟨nonempty, filled⟩ := not_or.mp (mt List.mem_cons.mpr filled)
    have ih := ih filled
    by_cases backslash : cluster = ['\\']
    · subst cluster
      have held : List.replicate (loose + count) '\\' ++ (['\\'] :: rest).flatten =
          List.replicate (loose + (count + 1)) '\\' ++ rest.flatten := by
        simp [← Nat.add_assoc, List.replicate_succ']
      rw [held, emit_backslash, ih loose (count + 1)]
      simp [apart]
    · by_cases quote : cluster = ['"']
      · subst cluster
        have rest := ih 0 0
        simp only [List.replicate_zero, List.nil_append, Nat.add_zero] at rest
        rw [emit_quote, List.flatten_cons, List.singleton_append, List.append_assoc, ← List.append_assoc,
          List.replicate_append_replicate, List.cons_append, escapes_run (by decide), if_pos rfl, rest]
        have escaped : loose + (2 * count + 1) = 2 * (loose + count) + 1 ↔ ¬ 0 < loose := by omega
        simp [apart, escaped]
      · have rest := ih (trailing (loose + count) cluster) 0
        rw [Nat.add_zero] at rest
        have loose_next : decide (0 < trailing (loose + count) cluster) = (cluster.getLast? == some '\\') := by
          rw [Bool.eq_iff_iff, decide_eq_true_iff, trailing_pos, beq_iff_eq]
          exact or_iff_right fun empty => nonempty empty.1.symm
        rw [emit_cluster count backslash quote, List.flatten_cons, List.append_assoc, List.append_assoc,
          ← List.append_assoc (List.replicate loose '\\'), List.replicate_append_replicate, escapes_raw, rest, loose_next]
        simp [apart, backslash, quote]

variable (graphemes : Graphemes)

private theorem faithful_body (arg : List Char) :
    Faithful graphemes arg ↔
      let (count, written) := emit 0 (graphemes.split arg)
      Escapes arg (written ++ List.replicate ((if quote? graphemes arg then 2 else 1) * count) '\\') := by
  by_cases quote : quote? graphemes arg = true
  · simp only [Faithful, encoding_eq, encoded, quote, if_true]
    constructor
    · rintro ⟨body, same, escapes⟩
      have same : (emit 0 (graphemes.split arg)).2 ++ List.replicate (2 * (emit 0 (graphemes.split arg)).1) '\\' = body := by
        simpa [← List.append_assoc] using same
      rwa [same]
    · intro escapes
      exact ⟨_, by simp, escapes⟩
  · simp [Faithful, encoding_eq, encoded, quote]

private theorem escaped_iff (arg : List Char) : Faithful graphemes arg ↔ apart false (graphemes.split arg) = true := by
  have some_copy : 1 ≤ if quote? graphemes arg then 2 else 1 := by split <;> omega
  have body := emit_escapes some_copy _ (graphemes.nonempty arg) 0 0
  simp only [List.replicate_zero, List.nil_append, Nat.add_zero, graphemes.flatten_split] at body
  rw [faithful_body]
  exact body

/-- The whole command line is made of encodings, and an encoding escapes its argument
exactly when no quote and no backslash in front of a quote is hidden in a longer cluster. -/
theorem quotes_escaped_iff (graphemes : Graphemes) (file : List Char) (args : List (List Char)) :
    args_to_command_line graphemes file args =
        encoding graphemes file ++ args.flatMap (fun arg => ' ' :: encoding graphemes arg) ∧
      ∀ arg, Faithful graphemes arg ↔ apart false (graphemes.split arg) = true := by
  refine ⟨command_line_eq graphemes file args, ?_⟩
  intro arg
  exact escaped_iff graphemes arg

/-- The segmentation of a text whose only extending code points are combining marks. -/
def combining : Graphemes where
  split text := text.splitBy fun _ next => 0x300 ≤ next.toNat ∧ next.toNat ≤ 0x36F
  flatten_split text := List.flatten_splitBy _ text
  nonempty text := List.nil_notMem_splitBy _ text

/-- A double quote with a combining acute accent: written without any backslash. -/
theorem accented_quote_raw :
    combining.split ['"', '\u0301'] = [['"', '\u0301']] ∧ encoding combining ['"', '\u0301'] = ['"', '\u0301'] ∧
      ¬ Faithful combining ['"', '\u0301'] := by
  refine ⟨by decide, by decide, ?_⟩
  rw [escaped_iff]
  decide

end ExPTY.Proofs.QuoteEscaping
