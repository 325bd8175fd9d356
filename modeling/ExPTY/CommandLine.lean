import Mathlib.Data.List.Basic

/-! `args_to_command_line` of lib/expty.ex. The loop of the source walks grapheme
clusters, its test for blanks and for a final quote look at the text itself, so the
segmentation of the `String` module stays a parameter with its two general laws. -/

namespace ExPTY

/-- A text is cut into nonempty clusters and nothing is lost. -/
structure Graphemes where
  split : List Char → List (List Char)
  flatten_split : ∀ text, (split text).flatten = text
  nonempty : ∀ text, [] ∉ split text

namespace Graphemes

/-- Every code point on its own, which is what the segmentation does on plain text. -/
def codePoints : Graphemes where
  split text := text.map fun c => [c]
  flatten_split text := by induction text with
    | nil => rfl
    | cons c text ih => simpa using ih
  nonempty text := by simp

variable (graphemes : Graphemes)

/-- `String.length/1` -/
def string_length (text : List Char) : Int := (graphemes.split text).length

/-- `String.at/2`, where a negative position counts from the end. -/
def string_at (text : List Char) (position : Int) : Option (List Char) :=
  let index := if position < 0 then graphemes.string_length text + position else position
  if index < 0 then none else (graphemes.split text)[index.toNat]?

end Graphemes

/-- `first..last`, which counts down when the bounds are the other way round. -/
def range (first last : Int) : List Int :=
  if first ≤ last then (List.range (last - first + 1).toNat).map fun (offset : Nat) => first + offset
  else (List.range (first - last + 1).toNat).map fun (offset : Nat) => first - offset

def repeat_text_impl (text : List Char) : Nat → List (List Char) → List Char
  | 0, result => result.flatten
  | count + 1, result => repeat_text_impl text count (text :: result)

def repeat_text (text : List Char) (count : Int) : List Char :=
  if count < 0 then [] else repeat_text_impl text count.toNat []

/-- `String.ends_with?(arg, "\"")` -/
def ends_with_quote (arg : List Char) : Bool := arg.getLast? == some '"'

section
variable (graphemes : Graphemes)

def quote? (arg : List Char) : Bool :=
  let arg0 := graphemes.string_at arg 0
  let has_lopsided_enclosing_quote := xor (arg0 != some ['"']) (!ends_with_quote arg)
  let has_no_eclosing_quotes := arg0 != some ['"'] && !ends_with_quote arg
  arg == [] ||
    ((arg.contains ' ' || arg.contains '\t') &&
      (graphemes.string_length arg > 0 && (has_lopsided_enclosing_quote || has_no_eclosing_quotes)))

/-- The body of the reduction, on the grapheme that `String.at` returns. -/
def escape (state : Int × List Char) (grapheme : Option (List Char)) : Int × List Char :=
  let (bs_count_, result_) := state
  match grapheme with
  | some ['\\'] => (bs_count_ + 1, result_)
  | some ['"'] => (0, result_ ++ repeat_text ['\\'] (bs_count_ * 2 + 1) ++ ['"'])
  -- interpolating `nil` gives the empty text
  | p => (0, result_ ++ repeat_text ['\\'] bs_count_ ++ p.getD [])

/-- The text one argument adds to the command line, after the separating space. -/
def append_arg (arg : List Char) (result : List Char) : List Char :=
  let quote := quote? graphemes arg
  let result := if quote then result ++ ['"'] else result
  let (bs_count, result) :=
    (range 0 (graphemes.string_length arg - 1)).foldl (fun state index => escape state (graphemes.string_at arg index)) (0, result)
  if quote then
    result ++ repeat_text ['\\'] (bs_count * 2) ++ ['"']
  else
    result ++ repeat_text ['\\'] bs_count

def args_to_command_line_impl : List (List Char) → Nat → List Char → List Char
  | [], _, result => result
  | arg :: argv, index, result =>
    let result := if index > 0 then result ++ [' '] else result
    args_to_command_line_impl argv (index + 1) (append_arg graphemes arg result)

def args_to_command_line (file : List Char) (args : List (List Char)) : List Char :=
  args_to_command_line_impl graphemes (file :: args) 0 []

/-- The encoding of one argument taken alone. -/
def encoding (arg : List Char) : List Char := args_to_command_line_impl graphemes [arg] 0 []

end

example : args_to_command_line .codePoints "a".toList ["".toList, "b c".toList, "d\\".toList] = "a \"\" \"b c\" d\\".toList := by
  decide

end ExPTY
