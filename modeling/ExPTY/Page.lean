import ExPTY.Base64
import ExPTY.SmartCell
import ExPTY.Unicode

/-! Text on its way through the page of the smart cell, lib/assets/main.js: keys from the
browser's terminal to the session, and the output of the session back. A JavaScript
string is its UTF-16 code units, and base64 stands for bytes. -/

namespace ExPTY.Page
open Unicode
open Server (Binary)
open SmartCell (Assigns Effect)

/-- `btoa`, which throws at a unit that is no byte. -/
def btoa (units : List UInt16) : Option (List Char) :=
  if units.all (· ≤ 0xFF) then some (Base64.encode (units.map (·.toUInt8))) else none

def atob (data : List Char) : Option (List UInt16) := (Base64.decode data).map (·.map (·.toUInt16))

/-- `term.onData`: the data of the event, unless there is none. -/
def on_data (text : List Char) : Option (List Char) := btoa (utf16 text)

/-- What the cell does when a text is typed. -/
def typed (text : List Char) (assigns : Assigns) : List Effect :=
  match on_data text with
  | some data => (SmartCell.handle_on_key (Base64.decode data) assigns).2
  | none => []

/-- The bytes that the page's terminal is given for output that the cell broadcasts. -/
def shown (data : Binary) : Option (List UInt8) := (atob (Base64.encode data)).map (·.map (·.toUInt8))

end ExPTY.Page
