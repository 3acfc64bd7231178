import PodWebhook.Json.Basic

/-!
The compact text of JSON: no blanks, members in the order given, non-ASCII characters as they are.
-/

namespace PodWebhook.Json

def hexChar (n : Nat) : Char :=
  if n < 10 then Char.ofNat (n + 0x30) else Char.ofNat (n + 0x57)

def escape (c : Char) : String :=
  match c with
  | '"' => "\\\""
  | '\\' => "\\\\"
  | '\n' => "\\n"
  | '\r' => "\\r"
  | '\t' => "\\t"
  | '\x08' => "\\b"
  | '\x0c' => "\\f"
  | c =>
    if c.toNat < 0x20 then
      "\\u00" ++ (String.singleton (hexChar (c.toNat / 16))).push (hexChar (c.toNat % 16))
    else String.singleton c

def quote (s : String) : String :=
  (s.toList.foldl (fun text c => text ++ escape c) "\"").push '"'

def separator (first : Bool) : String :=
  if first then "" else ","

mutual

def writeOnto (text : String) : Json → String
  | .null => text ++ "null"
  | .bool true => text ++ "true"
  | .bool false => text ++ "false"
  | .number n => text ++ n.toText
  | .text s => text ++ quote s
  | .array items => (writeItems (text.push '[') true items).push ']'
  | .object members => (writeMembers (text.push '\x7b') true members).push '\x7d'

def writeItems (text : String) (first : Bool) : List Json → String
  | [] => text
  | item :: items => writeItems (writeOnto (text ++ separator first) item) false items

def writeMembers (text : String) (first : Bool) : List (String × Json) → String
  | [] => text
  | (key, value) :: members =>
    writeMembers (writeOnto (text ++ separator first ++ quote key ++ ":") value) false members

end

def compact (value : Json) : String := writeOnto "" value

end PodWebhook.Json
