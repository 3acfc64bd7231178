import PodWebhook.Http.Target
import PodWebhook.Proofs.Text.Fronts

/-!
What becomes of a path that is taken for a target. A question mark ends the path and a hash ends all
that counts, wherever they stand; no other character moves a part of a text elsewhere.
-/

namespace PodWebhook.Http

/-- A text is a path, what comes behind a question mark, and what comes behind a hash after that. -/
structure Parted (text path : List Char) (query fragment : Option (List Char)) : Prop where
  whole : text = path ++ query.elim [] ('?' :: ·) ++ fragment.elim [] ('#' :: ·)
  path : '?' ∉ path ∧ '#' ∉ path
  query (cs : List Char) : query = some cs → '#' ∉ cs

theorem exists_parted (text : List Char) :
    ∃ path query fragment, Parted text path query fragment := by
  obtain ⟨front, fragment, noHash, rfl⟩ := Text.exists_cut '#' text
  obtain ⟨path, query, noMark, rfl⟩ := Text.exists_cut '?' front
  rw [List.mem_append, not_or] at noHash
  refine ⟨path, query, fragment, rfl, ⟨noMark, noHash.1⟩, ?_⟩
  rintro cs rfl member
  exact noHash.2 (List.mem_cons_of_mem _ member)

namespace Parted

variable {text path : List Char} {query fragment : Option (List Char)}

theorem prepend (h : Parted text path query fragment) {front : List Char}
    (plain : '?' ∉ front ∧ '#' ∉ front) :
    Parted (front ++ text) (front ++ path) query fragment where
  whole := by simp [h.whole]
  path := by simp [plain, h.path]
  query := h.query

theorem dropFragment (h : Parted text path query fragment) :
    Target.dropFragment text = path ++ query.elim [] ('?' :: ·) := by
  rw [Target.dropFragment, h.whole]
  refine Text.takeWhile_cut ?_ fragment
  rw [List.mem_append, not_or]
  refine ⟨h.path.2, ?_⟩
  cases query with
  | none => exact List.not_mem_nil
  | some cs => simpa using h.query cs rfl

end Parted

def Allowed (path : List Char) (query : Option (List Char)) : Prop :=
  (∀ c ∈ path, Target.isPathChar c = true) ∧
    ∀ cs ∈ query, ∀ c ∈ cs, Target.isQueryChar c = true

instance (path : List Char) (query : Option (List Char)) : Decidable (Allowed path query) :=
  inferInstanceAs (Decidable (_ ∧ _))

namespace Target

theorem ofPathAndQuery_parted {text path : List Char} {query fragment : Option (List Char)}
    (h : Parted text path query fragment) :
    ofPathAndQuery text =
      if Allowed path query then
        .ok ⟨if path.isEmpty then "/" else String.ofList path, query.map String.ofList⟩
      else .error .invalidCharacter := by
  have found : (path ++ query.elim [] ('?' :: ·)).takeWhile (· != '?') = path :=
    Text.takeWhile_cut h.path.1 query
  simp only [ofPathAndQuery, h.dropFragment, found, List.drop_left, List.all_eq_true, Allowed]
  cases query with
  | none => simp
  | some cs => simp

theorem parse_rooted {text : String} {c : Char} {cs : List Char}
    (h : text.toList = '/' :: c :: cs) :
    parse text =
      if maxLength < text.utf8ByteSize then .error .tooLong else ofPathAndQuery text.toList := by
  rw [parse, h]
  rfl

end Target

end PodWebhook.Http
