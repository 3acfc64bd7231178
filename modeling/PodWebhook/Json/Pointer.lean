import PodWebhook.Json.Basic

/-!
Pointers into JSON values: the keys and indices on the way from the whole value to a part of it. The
text of a pointer has a slash before each step; `parse?_toText` says that it reads back.
-/

namespace PodWebhook.Json

structure Pointer where
  steps : List String
  deriving DecidableEq, Repr, Inhabited

namespace Pointer

def escapeStep : List Char → List Char
  | [] => []
  | '~' :: cs => '~' :: '0' :: escapeStep cs
  | '/' :: cs => '~' :: '1' :: escapeStep cs
  | c :: cs => c :: escapeStep cs

def toText (pointer : Pointer) : String :=
  pointer.steps.foldl (fun text step => text ++ "/" ++ String.ofList (escapeStep step.toList)) ""

/-- Reads steps after a slash; the characters of the current step and the steps before it come last
one first. -/
def parseSteps : List Char → (current : List Char) → (done : List String) → Option (List String)
  | [], current, done => some ((String.ofList current.reverse :: done).reverse)
  | '/' :: cs, current, done => parseSteps cs [] (String.ofList current.reverse :: done)
  | '~' :: '0' :: cs, current, done => parseSteps cs ('~' :: current) done
  | '~' :: '1' :: cs, current, done => parseSteps cs ('/' :: current) done
  | '~' :: _, _, _ => none
  | c :: cs, current, done => parseSteps cs (c :: current) done

def parse? (text : String) : Option Pointer :=
  match text.toList with
  | [] => some ⟨[]⟩
  | '/' :: cs => (parseSteps cs [] []).map (⟨·⟩)
  | _ => none

theorem toList_toText (pointer : Pointer) :
    pointer.toText.toList = pointer.steps.flatMap fun step => '/' :: escapeStep step.toList := by
  suffices h : ∀ (steps : List String) (text : String),
      (steps.foldl (fun text step => text ++ "/" ++ String.ofList (escapeStep step.toList))
        text).toList = text.toList ++ steps.flatMap fun step => '/' :: escapeStep step.toList by
    simpa [toText] using h pointer.steps ""
  intro steps
  induction steps with
  | nil => simp
  | cons step steps ih => intro text; simp [ih]

theorem parseSteps_escapeStep (step rest current : List Char) (done : List String) :
    parseSteps (escapeStep step ++ rest) current done =
      parseSteps rest (step.reverse ++ current) done := by
  induction step generalizing current with
  | nil => rfl
  | cons c cs ih =>
    by_cases tilde : c = '~'
    · subst tilde; simp [escapeStep, parseSteps, ih]
    · by_cases slash : c = '/'
      · subst slash; simp [escapeStep, parseSteps, ih]
      · simp [escapeStep, parseSteps, tilde, ih]

theorem parseSteps_flatMap (steps : List String) (current : List Char) (done : List String) :
    parseSteps (steps.flatMap fun step => '/' :: escapeStep step.toList) current done =
      some ((String.ofList current.reverse :: done).reverse ++ steps) := by
  induction steps generalizing current done with
  | nil => simp [parseSteps]
  | cons step steps ih => simp [parseSteps, parseSteps_escapeStep, ih]

theorem parse?_toText (pointer : Pointer) : parse? pointer.toText = some pointer := by
  obtain ⟨steps⟩ := pointer
  rw [parse?, toList_toText]
  cases steps with
  | nil => rfl
  | cons step steps => simp [parseSteps_escapeStep, parseSteps_flatMap]

def digit? (c : Char) : Option Nat :=
  if '0' ≤ c ∧ c ≤ '9' then some (c.toNat - 0x30) else none

/-- The index a step stands for in a list: decimal digits, no zero in front of others. -/
def index? (step : String) : Option Nat :=
  match step.toList with
  | [] => none
  | '0' :: _ :: _ => none
  | cs => cs.foldl (fun n c => n.bind fun n => (digit? c).map (10 * n + ·)) (some 0)

def push (pointer : Pointer) (step : String) : Pointer := ⟨pointer.steps ++ [step]⟩

end Pointer

def child? (value : Json) (step : String) : Option Json :=
  match value with
  | .object members => Keyed.get? step members
  | .array items => (Pointer.index? step).bind fun i => items[i]?
  | _ => none

def follow? (value : Json) : List String → Option Json
  | [] => some value
  | step :: steps => (value.child? step).bind fun v => v.follow? steps

def setChild (value : Json) (step : String) (part : Json) : Json :=
  match value with
  | .object members => .object (Keyed.set step part members)
  | .array items =>
    match Pointer.index? step with
    | some i => .array (items.set i part)
    | none => value
  | _ => value

def modifyAt? (change : Json → Option Json) (value : Json) : List String → Option Json
  | [] => change value
  | step :: steps => do
    let part ← value.child? step
    let part ← modifyAt? change part steps
    some (value.setChild step part)

end PodWebhook.Json
