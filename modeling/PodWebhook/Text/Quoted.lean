import PodWebhook.Text.Unprintable

/-!
Text in double quotes for people to read: quotes and backslashes are escaped, and so is every
character that would not show.
-/

namespace PodWebhook.Text

def hex (n : Nat) : String :=
  String.ofList (Nat.toDigits 16 n)

def braced (n : Nat) : String :=
  "\\u\x7b" ++ hex n ++ "\x7d"

def quotedChar (c : Char) : String :=
  match c with
  | '"' => "\\\""
  | '\\' => "\\\\"
  | '\t' => "\\t"
  | '\n' => "\\n"
  | '\r' => "\\r"
  | '\x00' => "\\0"
  | c =>
    if c.toNat < 0x20 ∨ (0x7f ≤ c.toNat ∧ isUnprintable c) then braced c.toNat
    else String.singleton c

def quoted (s : String) : String :=
  (s.toList.foldl (fun text c => text ++ quotedChar c) "\"").push '"'

end PodWebhook.Text
