import Mathlib.Data.List.Count
import PodWebhook.Bytes
import PodWebhook.Net.Digits
import PodWebhook.Proofs.Json.Strings

/-!
Segments of a path, and the texts that they stand for once their escapes are read. A text without
special characters stands for itself, and any other text stands for something else or for nothing.
-/

namespace PodWebhook

theorem Bytes.utf8_of_text? {bytes : Bytes} {text : String} (h : text? bytes = some text) :
    utf8 text = bytes := by
  rw [text?, String.fromUTF8?] at h
  split at h
  · obtain rfl := Option.some.inj h
    rfl
  · cases h

namespace Http

/-- The bytes that a segment of a path stands for. A percent sign is followed by two hexadecimal
digits. -/
def unescape? : List Char → Option Bytes
  | '%' :: high :: low :: rest =>
    match Net.digit? 16 high, Net.digit? 16 low with
    | some h, some l => (unescape? rest).map (UInt8.ofNat (16 * h + l) :: ·)
    | _, _ => none
  | '%' :: _ => none
  | c :: rest => (unescape? rest).map (String.utf8EncodeChar c ++ ·)
  | [] => some []

theorem unescape?_cons {c : Char} (h : c ≠ '%') (rest : List Char) :
    unescape? (c :: rest) = (unescape? rest).map (String.utf8EncodeChar c ++ ·) := by
  rw [unescape?]
  · exact fun _ _ _ percent => absurd percent h
  · exact fun percent => absurd percent h

theorem unescape?_plain {cs : List Char} (h : '%' ∉ cs) :
    unescape? cs = some (cs.flatMap String.utf8EncodeChar) := by
  induction cs with
  | nil => rfl
  | cons c cs ih =>
      rw [List.mem_cons, not_or] at h
      rw [unescape?_cons (Ne.symm h.1), ih h.2]
      rfl

theorem ne_percent_of_digit? {c : Char} {n : Nat} (h : Net.digit? 16 c = some n) : c ≠ '%' := by
  rintro rfl
  cases h

theorem length_of_unescape? {cs : List Char} {bytes : Bytes} (h : unescape? cs = some bytes) :
    bytes.length + 2 * cs.count '%' ≤ (cs.flatMap String.utf8EncodeChar).length := by
  fun_induction unescape? cs generalizing bytes with
  | case1 high low rest first second digitSecond digitFirst ih =>
      obtain ⟨behind, read, rfl⟩ := Option.map_eq_some_iff.mp h
      have bound := ih read
      have sizes := And.intro high.utf8Size_pos low.utf8Size_pos
      rw [List.count_cons_self, List.count_cons_of_ne (ne_percent_of_digit? digitFirst),
        List.count_cons_of_ne (ne_percent_of_digit? digitSecond)]
      simp only [List.flatMap_cons, List.length_append, String.length_utf8EncodeChar,
        List.length_cons]
      have percent : '%'.utf8Size = 1 := rfl
      omega
  | case2 => cases h
  | case3 => cases h
  | case4 c rest _ other ih =>
      obtain ⟨behind, read, rfl⟩ := Option.map_eq_some_iff.mp h
      have bound := ih read
      rw [List.count_cons_of_ne other]
      simp only [List.flatMap_cons, List.length_append]
      omega
  | case5 =>
      obtain rfl := Option.some.inj h
      exact Nat.le_refl 0

/-- The text that a segment stands for. An empty segment, and dots that lead to where they stand or
back, stand for none. -/
def segmentText? (segment : String) : Option String :=
  if '/' ∈ segment.toList ∨ segment ∈ ["", ".", ".."] then none
  else (unescape? segment.toList).bind Bytes.text?

/-- A text that can stand in a path for itself. -/
structure Confined (name : String) : Prop where
  plain (c : Char) : c ∈ name.toList → c ∉ ['/', '?', '#', '%']
  named : name ∉ ["", ".", ".."]

theorem Confined.not_mem {name : String} (h : Confined name) {c : Char}
    (special : c ∈ ['/', '?', '#', '%']) : c ∉ name.toList :=
  fun member => h.plain c member special

theorem segmentText?_of_confined {name : String} (h : Confined name) :
    segmentText? name = some name := by
  have noSlash : '/' ∉ name.toList := h.not_mem (by decide)
  have noPercent : '%' ∉ name.toList := h.not_mem (by decide)
  rw [segmentText?, if_neg (not_or.mpr ⟨noSlash, h.named⟩), unescape?_plain noPercent,
    ← Json.utf8_eq_flatMap]
  exact Bytes.text?_utf8 name

theorem segmentText?_front {name front : String} {behind : List Char}
    (whole : name.toList = front.toList ++ behind) (h : segmentText? front = some name) :
    behind = [] ∧ '/' ∉ front.toList ∧ '%' ∉ front.toList ∧ front ∉ ["", ".", ".."] := by
  rw [segmentText?, Option.ite_none_left_eq_some, not_or] at h
  obtain ⟨⟨noSlash, named⟩, decodes⟩ := h
  obtain ⟨bytes, read, decoded⟩ := Option.bind_eq_some_iff.mp decodes
  have bound := length_of_unescape? read
  rw [← Bytes.utf8_of_text? decoded, Json.utf8_eq_flatMap, whole, List.flatMap_append,
    List.length_append] at bound
  -- decoding yields the whole name, and never more bytes than the front has
  refine ⟨?_, noSlash, List.count_eq_zero.mp (by omega), named⟩
  cases behind with
  | nil => rfl
  | cons c behind =>
      have size := c.utf8Size_pos
      simp only [List.flatMap_cons, List.length_append, String.length_utf8EncodeChar] at bound
      omega

end Http

end PodWebhook
