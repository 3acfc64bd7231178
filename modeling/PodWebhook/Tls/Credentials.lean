import PodWebhook.Tls.Der
import PodWebhook.Tls.Pem

/-!
What a server needs for TLS: certificates, the server's own first, and the private key that belongs
to it. The key file must hold exactly one key, beside anything else. Both are looked at as far as
their outer form goes; no signature is checked.
-/

namespace PodWebhook

namespace Tls

inductive CredentialsError where
  | noFile (path : String)
  | pem (error : PemError)
  | keyCount
  | keyForm
  | keyKind
  | noCertificates
  | certificateForm
  | mismatch
  deriving DecidableEq, Repr

namespace CredentialsError

def message : CredentialsError → String
  | noFile path =>
    "failed to read from file \x60" ++ path ++ "\x60: No such file or directory (os error 2)"
  | pem error => error.message
  | keyCount => "private key format not supported"
  | keyForm => "unknown or invalid key format"
  | keyKind => "unexpected error: failed to parse private key as RSA, ECDSA, or EdDSA"
  | noCertificates => "peer sent no certificates"
  | certificateForm => "invalid peer certificate: BadEncoding"
  | mismatch => "keys may not be consistent: KeyMismatch"

end CredentialsError

inductive KeyForm where
  | pkcs1
  | pkcs8
  | sec1
  deriving DecidableEq, Repr

structure Credentials where
  certificates : List Bytes
  key : Bytes
  deriving DecidableEq, Repr

namespace Credentials

def isKey (s : Section) : Bool :=
  s.kind == "RSA PRIVATE KEY" || s.kind == "PRIVATE KEY" || s.kind == "EC PRIVATE KEY"

def certificatesIn (file : Bytes) : Except CredentialsError (List Bytes) :=
  (Section.readAll file).foldr
    (fun item found =>
      match item with
      | .error error => .error (.pem error)
      | .ok s => found.map fun cs => if s.kind = "CERTIFICATE" then s.content :: cs else cs)
    (.ok [])

/-- The only key in a file; flaws beside it are passed over. -/
def keyIn (file : Bytes) : Except CredentialsError Bytes :=
  let keys := (Section.readAll file).filterMap fun item =>
    match item with
    | .ok s => if isKey s then some s.content else none
    | .error _ => none
  match keys with
  | [key] => .ok key
  | _ => .error .keyCount

def keyForm? (key : Bytes) : Option KeyForm :=
  match (Element.read key).map (·.1) with
  | none => none
  | some element =>
    if element.tag ≠ Element.sequenceTag then none
    else
      match element.content with
      | 0x02 :: 0x01 :: 0x01 :: 0x04 :: _ => some .sec1
      | 0x02 :: 0x01 :: 0x00 :: 0x02 :: _ => some .pkcs1
      | 0x02 :: 0x01 :: _ :: 0x30 :: _ => some .pkcs8
      | _ => none

def rsa : Bytes := [0x2a, 0x86, 0x48, 0x86, 0xf7, 0x0d, 0x01, 0x01, 0x01]

def ellipticCurve : Bytes := [0x2a, 0x86, 0x48, 0xce, 0x3d, 0x02, 0x01]

def edwards25519 : Bytes := [0x2b, 0x65, 0x70]

/-- What a wrapped key says of its public half: the algorithm, with the point if it is on a curve.
-/
inductive PublicHalf where
  | unknown
  | known (info : Bytes)
  deriving DecidableEq, Repr

def pointOf? (inner : Bytes) : Option Bytes := do
  let parts ← Element.sequence? inner
  let last ← parts.find? fun e => e.tag == 0xa1
  let (point, _) ← Element.read last.content
  if point.tag = 0x03 then some point.whole else none

def publicHalf? (key : Bytes) : Option PublicHalf :=
  match keyForm? key with
  | none => none
  | some .pkcs1 => (Element.sequence? key).map fun _ => .unknown
  | some .sec1 => (Element.sequence? key).map fun _ => .unknown
  | some .pkcs8 =>
    match Element.sequence? key with
    | some (_ :: algorithm :: inner :: _) =>
      match algorithm.parts with
      | some (name :: _) =>
        if name.content = ellipticCurve then
          (pointOf? inner.content).map fun point =>
            .known (Element.make Element.sequenceTag (algorithm.whole ++ point))
        else if name.content = rsa ∨ name.content = edwards25519 then some .unknown
        else none
      | _ => none
    | _ => none

/-- The public half that a certificate is about: the part after its subject. -/
def publicInfo? (certificate : Bytes) : Option Bytes := do
  let body ← (← Element.sequence? certificate).head?
  let parts ← body.parts
  let parts := parts.dropWhile fun e => e.tag == 0xa0
  let info ← parts[5]?
  if info.tag = Element.sequenceTag then some info.whole else none

/-- Certificates and key must belong together, as far as that can be told. -/
def make (certificates : List Bytes) (key : Bytes) : Except CredentialsError Credentials :=
  if (keyForm? key).isNone then .error .keyForm
  else
    match publicHalf? key, certificates with
    | none, _ => .error .keyKind
    | _, [] => .error .noCertificates
    | some half, own :: _ =>
      match half, publicInfo? own with
      | .unknown, _ => .ok ⟨certificates, key⟩
      | .known _, none => .error .certificateForm
      | .known info, some found =>
        if info = found then .ok ⟨certificates, key⟩ else .error .mismatch

def load (file : String → Option Bytes) (certPath keyPath : String) :
    Except CredentialsError Credentials :=
  match file certPath with
  | none => .error (.noFile certPath)
  | some certFile =>
    match file keyPath with
    | none => .error (.noFile keyPath)
    | some keyFile => do
      let certificates ← certificatesIn certFile
      let key ← keyIn keyFile
      make certificates key

end Credentials

end Tls

end PodWebhook
