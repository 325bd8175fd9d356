import ExPTY.Page

/-! What arrives of typed text. The page hands UTF-16 units to `btoa` as if they were
bytes of UTF-8, and only for ASCII they are. Output goes the other way unharmed, because
it is bytes at both ends. -/

namespace ExPTY.Proofs.KeyboardPath
open Unicode Page SmartCell
open Server (Binary)

theorem decode_btoa {units : List UInt16} {data : List Char} (encoded : btoa units = some data) :
    Base64.decode data = some (units.map (·.toUInt8)) := by
  simp only [btoa, Option.ite_none_right_eq_some, Option.some.injEq] at encoded
  rw [← encoded.2, Base64.decode_encode]

theorem typed_running (text : List Char) (assigns : Assigns) (pty : Pid) :
    typed text { assigns with pty := some pty } =
      if (utf16 text).all (· ≤ 0xFF) then [.write pty ((utf16 text).map (·.toUInt8))] else [] := by
  simp only [typed, on_data]
  cases encoded : btoa (utf16 text) with
  | none =>
    simp only [btoa, ite_eq_right_iff, reduceCtorEq, imp_false] at encoded
    rw [if_neg encoded]
  | some data =>
    simp only [decode_btoa encoded, handle_on_key]
    simp only [btoa, Option.ite_none_right_eq_some] at encoded
    rw [if_pos encoded.1]

/-- A typed text reaches the session as its UTF-8 encoding, in one write, exactly when
all of it is ASCII. -/
theorem keys_arrive_iff (text : List Char) (assigns : Assigns) (pty : Pid) :
    typed text { assigns with pty := some pty } = [.write pty (utf8 text)] ↔ ∀ c ∈ text, ascii c := by
  rw [typed_running]
  constructor
  · intro written
    split at written
    · simp only [List.cons.injEq, Effect.write.injEq, true_and, and_true] at written
      exact utf16_length_eq (by rw [← written, List.length_map])
    · cases written
  · intro small
    obtain ⟨fits, bytes⟩ := utf16_ascii small
    rw [if_pos fits, bytes]

theorem shown_exact (data : Binary) : shown data = some data := by
  simp [shown, atob, Base64.decode_encode, Function.comp_def]

def running : Assigns := { executable := "bash", pty := some 0, started? := true }

/-- An accented letter arrives as one byte that is no UTF-8, and a euro sign not at all. -/
theorem accents_garbled :
    typed ['é'] running = [.write 0 [0xE9]] ∧ typed ['€'] running = [] ∧
      typed ['é'] running ≠ [.write 0 (utf8 ['é'])] ∧ typed ['€'] running ≠ [.write 0 (utf8 ['€'])] := by
  decide +kernel

end ExPTY.Proofs.KeyboardPath
