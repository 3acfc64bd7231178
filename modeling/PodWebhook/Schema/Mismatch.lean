import PodWebhook.Json.Fault
import PodWebhook.Json.Number
import PodWebhook.Text.Quoted

/-!
Why a tree does not have the shape it should have. A mismatch found in a text is reported with its
place there; one found in a value has no place, and a list that is too long is worded differently.
-/

namespace PodWebhook.Schema

open Json (Cause Number Location)

inductive Found where
  | null
  | bool (value : Bool)
  | number (value : Number)
  | text (value : String)
  | list
  | map
  deriving DecidableEq, Repr

namespace Found

def describe : Found → String
  | null => "null"
  | bool value => "boolean \x60" ++ (if value then "true" else "false") ++ "\x60"
  | number (.int value) => "integer \x60" ++ toString value ++ "\x60"
  | number (.double bits) => "floating point \x60" ++ Number.doubleText bits ++ "\x60"
  | text value => "string " ++ Text.quoted value
  | list => "sequence"
  | map => "map"

end Found

inductive Reason where
  | malformed (cause : Cause)
  | wrongType (found : Found) (expected : String)
  | wrongValue (found : Found) (expected : String)
  | unknownVariant (found expected : String)
  | missingField (name : String)
  | duplicateField (name : String)
  /-- A list stands for a record and ends before the field with this index. -/
  | tooFew (index : Nat) (expected : String)
  | tooMany (count : Nat)
  | notInstant (message : String)
  deriving DecidableEq, Repr

structure Mismatch where
  reason : Reason
  pos : Nat
  deriving DecidableEq, Repr

namespace Reason

def describe : Reason → String
  | malformed cause => cause.message
  | wrongType found expected => "invalid type: " ++ found.describe ++ ", expected " ++ expected
  | wrongValue found expected => "invalid value: " ++ found.describe ++ ", expected " ++ expected
  | unknownVariant found expected =>
    "unknown variant \x60" ++ found ++ "\x60, expected " ++ expected
  | missingField name => "missing field \x60" ++ name ++ "\x60"
  | duplicateField name => "duplicate field \x60" ++ name ++ "\x60"
  | tooFew index expected => "invalid length " ++ Nat.repr index ++ ", expected " ++ expected
  | tooMany count =>
    "invalid length " ++ Nat.repr count ++ ", expected fewer elements in array"
  | notInstant message => message

end Reason

inductive Category where
  | malformed
  | data
  | atEnd
  deriving DecidableEq, Repr

namespace Mismatch

/-- In a text a list that is too long shows as what follows its last element. -/
def inText (mismatch : Mismatch) : Mismatch :=
  match mismatch.reason with
  | .tooMany _ => ⟨.malformed .trailingCharacters, mismatch.pos⟩
  | _ => mismatch

def describeIn (bytes : Bytes) (mismatch : Mismatch) : String :=
  mismatch.inText.reason.describe ++ (Location.ofOffset bytes mismatch.pos).toText

def describe (mismatch : Mismatch) : String :=
  mismatch.reason.describe

def category (mismatch : Mismatch) : Category :=
  match mismatch.inText.reason with
  | .malformed cause => if cause.atEnd then .atEnd else .malformed
  | _ => .data

end Mismatch

end PodWebhook.Schema
