import PodWebhook.Text.Base64
import PodWebhook.Text.Quoted

/-!
PEM files: sections of base64 text between lines that name their kind. What stands outside of
sections is passed over, and a section that begins inside another one takes its place.
-/

namespace PodWebhook.Tls

inductive PemError where
  | unclosed (ending : String)
  | badStart (line : String)
  | badText (reason : String)
  deriving DecidableEq, Repr

namespace PemError

def message : PemError → String
  | unclosed ending => "section end " ++ Text.quoted ending ++ " missing"
  | badStart line => "illegal section start: " ++ Text.quoted line
  | badText reason => reason

end PemError

structure Section where
  kind : String
  content : Bytes
  deriving DecidableEq, Repr

namespace Section

def startMark : Bytes := Bytes.utf8 "-----BEGIN "

def endMark (kind : String) : String := "-----END " ++ kind ++ "-----"

def trimEnd (line : Bytes) : Bytes :=
  (line.reverse.dropWhile fun b => b == 0x0a || b == 0x0d || b == 0x20).reverse

/-- Bytes as text, byte by byte where they are no UTF-8. -/
def textOf (bytes : Bytes) : String :=
  (Bytes.text? bytes).getD (String.ofList (bytes.map fun b => Char.ofNat b.toNat))

def kindOf? (line : Bytes) : Option String :=
  let line := trimEnd line
  let dashes := (line.reverse.takeWhile (· == 0x2d)).length
  if dashes = 5 then some (textOf ((line.take (line.length - 5)).drop startMark.length)) else none

def strayByte? (text : Bytes) : Option UInt8 :=
  text.find? fun b => b != 0x3d && (Base64.value? (Char.ofNat b.toNat)).isNone

def decode (kind : String) (text : Bytes) : Except PemError Section :=
  match Base64.decode? (String.ofList (text.map fun b => Char.ofNat b.toNat)) with
  | some content => .ok ⟨kind, content⟩
  | none =>
    match strayByte? text with
    | some b => .error (.badText ("InvalidCharacter(" ++ Nat.repr b.toNat ++ ")"))
    | none => .error (.badText "PrematurePadding")

/-- The kinds that are known; sections of other kinds are passed over. -/
def kinds : List String :=
  ["CERTIFICATE", "PUBLIC KEY", "RSA PRIVATE KEY", "PRIVATE KEY", "EC PRIVATE KEY", "X509 CRL",
    "CERTIFICATE REQUEST"]

/-- Reads lines; `opened` is the kind of the section that is open, with its lines, the last one
first. -/
def readLines :
    (opened : Option (String × List Bytes)) → List Bytes → List (Except PemError Section)
  | none, [] => []
  | some (kind, _), [] => [.error (.unclosed (endMark kind))]
  | opened, line :: rest =>
    if startMark.isPrefixOf line then
      match kindOf? line with
      | some kind =>
        readLines (some (kind, (opened.map (·.2)).getD [])) rest
      | none => .error (.badStart (textOf line)) :: readLines none rest
    else
      match opened with
      | none => readLines none rest
      | some (kind, lines) =>
        if (Bytes.utf8 (endMark kind)).isPrefixOf line then
          if kind ∈ kinds then decode kind lines.reverse.flatten :: readLines none rest
          else readLines none rest
        else readLines (some (kind, trimEnd line :: lines)) rest

def splitLines : (line : Bytes) → Bytes → List Bytes
  | [], [] => []
  | line, [] => [line.reverse]
  | line, b :: rest =>
    if b = 0x0a then (b :: line).reverse :: splitLines [] rest else splitLines (b :: line) rest

def readAll (file : Bytes) : List (Except PemError Section) := readLines none (splitLines [] file)

end Section

end PodWebhook.Tls
