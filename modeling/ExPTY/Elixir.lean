import ExPTY.Server
import ExPTY.Unicode

/-! The part of Elixir that `init` and the public functions meet: terms of any kind,
keyword lists, and the table of exported functions. -/

namespace ExPTY.Elixir
open Server (Binary Func)

inductive Value where
  | atom (name : String)
  | integer (value : Int)
  | binary (bytes : Binary)
  | function (callback : Func)
  | empty
  | cons (head tail : Value)
  -- a term that the code modelled here only passes on, such as a map or a tuple
  | other (id : Nat)
  deriving DecidableEq, Repr

namespace Value

/-- The atom `nil`, which also stands for what is not there. -/
def nil : Value := .atom "nil"

/-- `value || default` -/
def or (value default : Value) : Value := if value = nil ∨ value = .atom "false" then default else value

def text (string : String) : Value := .binary (Unicode.utf8 string.toList)

/-- `is_boolean/1`, with the truth value. -/
def boolean? : Value → Option Bool
  | .atom "true" => some true
  | .atom "false" => some false
  | _ => none

def binary? : Value → Option Binary
  | .binary bytes => some bytes
  | _ => none

def binaries? : Value → Option (List Binary)
  | .empty => some []
  | .cons head tail => do return (← head.binary?) :: (← tail.binaries?)
  | _ => none

end Value

abbrev Keyword := List (String × Value)

/-- `keyword[key]` -/
def Keyword.access (keyword : Keyword) (key : String) : Value := (keyword.lookup key).getD .nil

/-- `Keyword.merge/2` -/
def Keyword.merge (first second : Keyword) : Keyword :=
  first.filter (fun entry => (second.lookup entry.1).isNone) ++ second

/-- `Kernel.function_exported?/3` -/
abbrev Exports := String → String → Nat → Bool

private theorem lookup_filter (kept : String → Bool) (keyword : Keyword) (key : String) :
    (keyword.filter fun entry => kept entry.1).lookup key = if kept key then keyword.lookup key else none := by
  induction keyword with
  | nil => simp
  | cons entry keyword ih =>
    obtain ⟨name, value⟩ := entry
    rw [List.filter_cons, List.lookup_cons]
    by_cases same : key = name
    · subst same
      by_cases free : kept key <;> simp [free, ih]
    · have other : (key == name) = false := beq_eq_false_iff_ne.mpr same
      split <;> simp [List.lookup_cons, other, ih]

theorem Keyword.access_merge (first second : Keyword) (key : String) :
    (first.merge second).access key = ((second.lookup key).or (first.lookup key)).getD .nil := by
  rw [Keyword.access, Keyword.merge, List.lookup_append, lookup_filter fun name => (second.lookup name).isNone]
  cases second.lookup key <;> simp

/-- A default of `nil` is no default. -/
theorem Keyword.access_merge_nil {first : Keyword} {key : String} (unset : first.lookup key = some .nil) (second : Keyword) :
    (first.merge second).access key = second.access key := by
  rw [Keyword.access_merge, unset, Keyword.access]
  cases second.lookup key <;> rfl

end ExPTY.Elixir
