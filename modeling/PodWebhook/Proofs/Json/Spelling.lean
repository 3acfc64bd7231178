import PodWebhook.Json.Token
import PodWebhook.Json.Basic

/-!
The texts that spell a JSON value, as a grammar apart from any reader. Blanks may stand around every
token, a character of a string may be written in several ways, and members of an object stay in the
order of the text, repeated ones among them. Numbers are integers that fit 64 bits.
-/

namespace PodWebhook.Json

def Blank (bytes : Bytes) : Prop :=
  ∀ b ∈ bytes, Bytes.isBlank b = true

inductive FourDigits : Nat → Bytes → Prop where
  | mk {a b c d : UInt8} {p q r s : Nat} (ha : Bytes.hexDigit? a = some p)
      (hb : Bytes.hexDigit? b = some q) (hc : Bytes.hexDigit? c = some r)
      (hd : Bytes.hexDigit? d = some s) :
      FourDigits (((p * 16 + q) * 16 + r) * 16 + s) [a, b, c, d]

theorem FourDigits.length {n : Nat} {digits : Bytes} (h : FourDigits n digits) :
    digits.length = 4 := by
  cases h
  rfl

def escapeLetters : List (UInt8 × Char) :=
  [(0x22, '"'), (0x5c, '\\'), (0x2f, '/'), (0x62, '\x08'), (0x66, '\x0c'), (0x6e, '\n'),
    (0x72, '\r'), (0x74, '\t')]

inductive CharSpelled : Char → Bytes → Prop where
  | plain {c : Char} (visible : 0x20 ≤ c.toNat) (quote : c ≠ '"') (backslash : c ≠ '\\') :
      CharSpelled c (String.utf8EncodeChar c)
  | letter {c : Char} {b : UInt8} (h : (b, c) ∈ escapeLetters) : CharSpelled c [0x5c, b]
  | unit {n : Nat} {digits : Bytes} (h : FourDigits n digits) (low : isLowSurrogate n = false)
      (high : isHighSurrogate n = false) :
      CharSpelled (Char.ofNat n) (0x5c :: 0x75 :: digits)
  /-- A surrogate pair, for a character that needs more than 16 bits. -/
  | pair {high low : Nat} {first second : Bytes} (h : FourDigits high first)
      (hh : isHighSurrogate high = true) (l : FourDigits low second)
      (hl : isLowSurrogate low = true) :
      CharSpelled (Char.ofNat ((high - 0xd800) * 0x400 + (low - 0xdc00) + 0x10000))
        (0x5c :: 0x75 :: first ++ 0x5c :: 0x75 :: second)

inductive TextSpelled : List Char → Bytes → Prop where
  | nil : TextSpelled [] []
  | cons {c : Char} {cs : List Char} {first rest : Bytes} (head : CharSpelled c first)
      (tail : TextSpelled cs rest) : TextSpelled (c :: cs) (first ++ rest)

structure Numeral (n : Nat) (digits : Bytes) : Prop where
  digit : ∀ b ∈ digits, Bytes.isDigit b = true
  nonempty : digits ≠ []
  leading : digits = [0x30] ∨ digits.head? ≠ some 0x30
  value : digits.foldl (fun n b => n * 10 + Bytes.digit b) 0 = n

def Within64 (negative : Bool) (n : Nat) : Prop :=
  if negative then n ≤ 0x8000000000000000 else n < 0x10000000000000000

def signBytes (negative : Bool) : Bytes :=
  if negative then [0x2d] else []

/-- One element or more, with commas in between and blanks around each. -/
inductive Separated {α : Type} (R : α → Bytes → Prop) : List α → Bytes → Prop where
  | last {x : α} {before text after : Bytes} (hb : Blank before) (h : R x text)
      (ha : Blank after) : Separated R [x] (before ++ text ++ after)
  | cons {x : α} {xs : List α} {before text after rest : Bytes} (hb : Blank before)
      (h : R x text) (ha : Blank after) (tail : Separated R xs rest) :
      Separated R (x :: xs) (before ++ text ++ after ++ 0x2c :: rest)

inductive MemberSpelled (R : Json → Bytes → Prop) : String × Json → Bytes → Prop where
  | mk {key : String} {value : Json} {name middle gap text : Bytes}
      (hk : TextSpelled key.toList name) (hm : Blank middle) (hg : Blank gap)
      (hv : R value text) :
      MemberSpelled R (key, value) (0x22 :: name ++ 0x22 :: middle ++ 0x3a :: gap ++ text)

/-- A text from the first to the last byte of a value. -/
inductive Spelled : Json → Bytes → Prop where
  | nullWord : Spelled .null [0x6e, 0x75, 0x6c, 0x6c]
  | trueWord : Spelled (.bool true) [0x74, 0x72, 0x75, 0x65]
  | falseWord : Spelled (.bool false) [0x66, 0x61, 0x6c, 0x73, 0x65]
  | number {negative : Bool} {n : Nat} {digits : Bytes} (h : Numeral n digits)
      (fits : Within64 negative n) :
      Spelled (.number (integer negative n)) (signBytes negative ++ digits)
  | text {s : String} {body : Bytes} (h : TextSpelled s.toList body) :
      Spelled (.text s) (0x22 :: body ++ [0x22])
  | emptyArray {blank : Bytes} (h : Blank blank) : Spelled (.array []) (0x5b :: blank ++ [0x5d])
  | array {items : List Json} {body : Bytes} (h : Separated Spelled items body) :
      Spelled (.array items) (0x5b :: body ++ [0x5d])
  | emptyObject {blank : Bytes} (h : Blank blank) :
      Spelled (.object []) (0x7b :: blank ++ [0x7d])
  | object {members : List (String × Json)} {body : Bytes}
      (h : Separated (MemberSpelled Spelled) members body) :
      Spelled (.object members) (0x7b :: body ++ [0x7d])

mutual

def depth : Json → Nat
  | .array items => depthItems items + 1
  | .object members => depthMembers members + 1
  | _ => 0

def depthItems : List Json → Nat
  | [] => 0
  | item :: items => max (depth item) (depthItems items)

def depthMembers : List (String × Json) → Nat
  | [] => 0
  | (_, value) :: members => max (depth value) (depthMembers members)

end

theorem depth_le_depthItems {item : Json} {items : List Json} (h : item ∈ items) :
    item.depth ≤ depthItems items := by
  induction items with
  | nil => simp at h
  | cons first items ih =>
      simp only [depthItems]
      rcases List.mem_cons.mp h with rfl | hmem
      · omega
      · have := ih hmem
        omega

theorem depth_le_depthMembers {member : String × Json} {members : List (String × Json)}
    (h : member ∈ members) : member.2.depth ≤ depthMembers members := by
  induction members with
  | nil => simp at h
  | cons first members ih =>
      simp only [depthMembers]
      rcases List.mem_cons.mp h with rfl | hmem
      · omega
      · have := ih hmem
        omega

theorem depthItems_le {items : List Json} {bound : Nat} (h : ∀ item ∈ items, item.depth ≤ bound) :
    depthItems items ≤ bound := by
  induction items with
  | nil => exact Nat.zero_le bound
  | cons item items ih =>
      rw [depthItems, Nat.max_le]
      exact ⟨h item List.mem_cons_self, ih fun i hi => h i (List.mem_cons_of_mem item hi)⟩

theorem depthMembers_le {members : List (String × Json)} {bound : Nat}
    (h : ∀ m ∈ members, m.2.depth ≤ bound) : depthMembers members ≤ bound := by
  induction members with
  | nil => exact Nat.zero_le bound
  | cons m members ih =>
      rw [depthMembers, Nat.max_le]
      exact ⟨h m List.mem_cons_self, ih fun n hn => h n (List.mem_cons_of_mem m hn)⟩

def DocumentSpelled (value : Json) (bytes : Bytes) : Prop :=
  ∃ before text after, Blank before ∧ Spelled value text ∧ Blank after ∧
    bytes = before ++ text ++ after

end PodWebhook.Json
