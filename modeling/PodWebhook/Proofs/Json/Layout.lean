import Mathlib.Data.List.Nodup
import PodWebhook.Proofs.Json.Likeness
import PodWebhook.Proofs.Json.Skimming

/-!
From the layout of a term to its tree. However a term is written, its tree is alike to the one that
leaves the places open; and the trees of terms that differ in the order of members are alike. So
there is nothing in the tree of a text but its term.
-/

namespace PodWebhook.Json

open Node Parsed

section Leaves

variable {array object : Bytes → Nat → Parsed}

theorem parses_token {token : Bytes} (h : NumberToken token) :
    Parses (ofValue array object) (·.Alike (Term.number token).leaf) token := by
  have settles := settles_readNumber h
  have skips := skips_number h
  intro before rest pos hb stops
  have skipped := skips rest (pos + before.length) stops
  have laid : ofValue array object (before ++ token ++ rest) pos =
      ofNumber (token ++ rest) (pos + before.length) := by
    obtain ⟨b, bytes, rfl, numeric⟩ := h.exists_cons
    rw [List.append_assoc, List.cons_append, ofValue_numeric array object hb numeric]
  rw [laid, Term.leaf, ofNumber]
  cases value : numberOf? token with
  | some n =>
      rw [value] at settles
      cases settles with
      | value read =>
          rw [read rest _ stops]
          exact ⟨_, rfl, .number _ _ _ _ n⟩
  | none =>
      rw [value] at settles
      cases settles with
      | none fails =>
          obtain ⟨fault, failed⟩ := fails rest (pos + before.length) stops
          rw [failed, skipped]
          exact ⟨_, rfl, .unreadable _ _ _ _⟩

theorem parses_units {units : List UInt16} {body : Bytes} (h : UnitsSpelled units body) :
    Parses (ofValue array object) (·.Alike (Term.text units).leaf) (0x22 :: body ++ [0x22]) := by
  intro before rest pos hb _
  have read := readString_units h rest (pos + before.length + 1)
  have skipped := skipText_units h rest (pos + before.length + 1)
  have stop : pos + before.length + (0x22 :: body ++ [0x22]).length =
      pos + before.length + 1 + body.length + 1 := by simp; omega
  rw [ofValue_quote array object hb, stop, Term.leaf, ofText]
  cases value : textOf? units with
  | some s =>
      rw [value] at read
      simp only [read]
      exact ⟨_, rfl, .text _ _ _ _ s⟩
  | none =>
      rw [value] at read
      obtain ⟨fault, failed⟩ := read
      simp only [failed, skipped]
      exact ⟨_, rfl, .unreadable _ _ _ _⟩

end Leaves

/-- Where brackets are not followed any more they are skipped. -/
theorem parses_deep {limit : Nat} {bracket : Bracket} {bytes : Bytes} {node : Node}
    (h : Passes .value (bracket.opening :: bytes)) (short : bytes.length + 1 < limit)
    (deep : ∃ start fault, node = .unreadable start fault) :
    Parses (atDepth limit 0) (·.Alike node) (bracket.opening :: bytes) := by
  obtain ⟨start, fault, rfl⟩ := deep
  obtain ⟨used, bound, skims⟩ := h
  intro before rest pos hb stops
  obtain ⟨fuel, enough⟩ : ∃ fuel, 2 * limit = fuel + 1 + used :=
    ⟨2 * limit - used - 1, by simp at bound; omega⟩
  have skimmed := skims (fuel + 1) [] [] rest (pos + before.length) (by simp [Blank]) stops
  have laid : atDepth limit 0 (before ++ bracket.opening :: bytes ++ rest) pos =
      ofDeep limit (bracket.opening :: bytes ++ rest) (pos + before.length) := by
    rw [List.append_assoc, List.cons_append, atDepth, ofValue,
      skipBlanks_before hb bracket.isBlank_opening]
    cases bracket <;> rfl
  rw [laid, ofDeep, enough]
  rw [List.nil_append, List.length_nil, Nat.add_zero] at skimmed
  rw [skimmed]
  exact ⟨_, rfl, .unreadable _ _ _ _⟩

namespace Term

theorem readsKey_units {units : List UInt16} {text : Bytes} (h : UnitsSpelled units text) :
    ReadsKey (textOf? units) text := by
  intro rest pos
  have read := readString_units h rest pos
  have skipped := skipText_units h rest pos
  cases value : textOf? units with
  | some s =>
      rw [value] at read
      exact ⟨.ok s, by simp only [readKey, read], rfl⟩
  | none =>
      rw [value] at read
      obtain ⟨fault, failed⟩ := read
      exact ⟨.error fault, by simp only [readKey, failed, skipped], rfl⟩

theorem Written.parses_scalar {term : Term} {text : Bytes} (h : Written term text)
    (scalar : term.isScalar = true) (array object : Bytes → Nat → Parsed) :
    Parses (ofValue array object) (·.Alike term.leaf) text := by
  cases h with
  | nullWord =>
      refine (@parses_word .null _ _ array object rfl).imp fun node stands => ?_
      cases stands with
      | null stop => exact .null stop 0
  | trueWord =>
      refine (@parses_word .true _ _ array object rfl).imp fun node stands => ?_
      cases stands with
      | bool stop value => exact .bool stop 0 true
  | falseWord =>
      refine (@parses_word .false _ _ array object rfl).imp fun node stands => ?_
      cases stands with
      | bool stop value => exact .bool stop 0 false
  | number h => exact parses_token h
  | text h => exact parses_units h
  | emptyArray | array | emptyObject | object => cases scalar

theorem nodup_texts {members : List (List UInt16 × Term)} (keys : (members.map (·.1)).Nodup) :
    ((members.map (·.1)).filterMap textOf?).Nodup :=
  List.Nodup.filterMap (fun _ _ _ h same => textOf?_injective h same) keys

theorem alike_object {depth : Nat} {members : List (List UInt16 × Term)}
    {nodes : List (Key × Node)} (start stop : Nat)
    (h : List.Forall₂ (fun n m => Named (·.Alike (tree depth m.2)) (textOf? m.1) n) nodes
      members) :
    (Node.object start nodes (.closed stop)).Alike ((Term.object members).tree (depth + 1)) := by
  refine .object start stop 0 0 ?_ ?_ (.same _)
  · simp only [List.forall₂_map_left_iff, List.forall₂_map_right_iff]
    exact h.imp fun _ _ named => ⟨named.unskippable, rfl, named.name.trans (name_keyOf _).symm⟩
  · simp only [List.forall₂_map_left_iff, List.forall₂_map_right_iff]
    exact h.imp fun _ _ named => named.value

/-- The tree of a text is that of its term, its places apart. -/
theorem Written.parses (limit depth : Nat) {term : Term} {text : Bytes} (h : Written term text)
    (short : text.length < limit) :
    Parses (atDepth limit depth) (·.Alike (term.tree depth)) text := by
  induction depth generalizing term text with
  | zero =>
      cases scalar : term.isScalar with
      | true =>
          rw [tree_of_isScalar scalar]
          exact h.parses_scalar scalar _ _
      | false =>
          have passes := h.passes
          cases h with
          | emptyArray | array =>
              exact @parses_deep limit .list _ _ passes (by simpa using short) ⟨_, _, rfl⟩
          | emptyObject | object =>
              exact @parses_deep limit .object _ _ passes (by simpa using short) ⟨_, _, rfl⟩
          | nullWord | trueWord | falseWord | number | text => cases scalar
  | succ depth ih =>
      have items {items : List Term} {body : Bytes} (short : body.length + 2 < limit)
          (h : Blank body ∧ items = [] ∨ Separated Written items body) :
          Parses (atDepth limit (depth + 1)) (·.Alike ((Term.array items).tree (depth + 1)))
            (0x5b :: body ++ [0x5d]) := by
        refine (parses_items _ h (fun _ _ h => h.solid) (fun item hi t ht le => ih ht (by omega))
          (by omega)).imp ?_
        rintro _ ⟨start, opened, nodes, stop, rfl, pairs⟩
        exact .array start opened stop 0 0 0 (List.forall₂_map_right_iff.mpr pairs)
      have members {members : List (List UInt16 × Term)} {body : Bytes}
          (short : body.length + 2 < limit)
          (h : Blank body ∧ members = [] ∨ Separated (MemberWritten Written) members body) :
          Parses (atDepth limit (depth + 1)) (·.Alike ((Term.object members).tree (depth + 1)))
            (0x7b :: body ++ [0x7d]) := by
        have spelled : ∀ m ∈ members, ∀ t, MemberWritten Written m t → t.length ≤ body.length →
            ParsesMember (atDepth limit depth) (textOf? m.1) (·.Alike (tree depth m.2)) t := by
          intro m mem t ht le
          cases ht with
          | mk hk hm hg hv =>
              exact .mk (readsKey_units hk) hm hg (ih hv (by simp at le; omega))
        refine (parses_members _ h spelled (by omega)).imp ?_
        rintro _ ⟨start, nodes, stop, rfl, named⟩
        exact alike_object start stop named
      cases scalar : term.isScalar with
      | true =>
          rw [tree_of_isScalar scalar]
          exact h.parses_scalar scalar _ _
      | false =>
          cases h with
          | emptyArray hb => exact items (by simpa using short) (.inl ⟨hb, rfl⟩)
          | array hs => exact items (by simpa using short) (.inr hs)
          | emptyObject hb => exact members (by simpa using short) (.inl ⟨hb, rfl⟩)
          | object hs => exact members (by simpa using short) (.inr hs)
          | nullWord | trueWord | falseWord | number | text => cases scalar

theorem alike_leaf (term : Term) : term.leaf.Alike term.leaf := by
  cases term with
  | number token =>
      rw [leaf]
      cases numberOf? token <;> constructor
  | text units =>
      rw [leaf]
      cases textOf? units <;> constructor
  | null | bool | array | object => constructor

theorem names_tree (depth : Nat) (members : List (List UInt16 × Term)) :
    Node.names (members.map fun m => (keyOf m.1, tree depth m.2)) =
      (members.map (·.1)).filterMap textOf? := by
  rw [Node.names, List.filterMap_map, List.filterMap_map]
  exact List.filterMap_congr fun m _ => name_keyOf m.1

theorem alike_keys {keys others : List (List UInt16)} (same : keys = others) :
    List.Forall₂ Key.Alike (keys.map keyOf) (others.map keyOf) := by
  rw [same, List.forall₂_map_left_iff, List.forall₂_map_right_iff, List.forall₂_same]
  exact fun _ _ => ⟨rfl, rfl, rfl⟩

theorem alike_objects {depth : Nat} {members middle others : List (List UInt16 × Term)}
    (distinct : (members.map (·.1)).Nodup) (keys : members.map (·.1) = middle.map (·.1))
    (values : List.Forall₂ (fun t u => (tree depth t).Alike (tree depth u)) (members.map (·.2))
      (middle.map (·.2)))
    (order : middle.Perm others) :
    ((Term.object members).tree (depth + 1)).Alike ((Term.object others).tree (depth + 1)) := by
  refine .object 0 0 0 0 ?_ ?_ (.permuted ?_ (order.map _))
  · have alike := alike_keys keys
    rw [List.map_map, List.map_map] at alike ⊢
    exact alike
  · simp only [List.map_map, List.forall₂_map_left_iff, List.forall₂_map_right_iff] at values ⊢
    exact values
  · rw [names_tree, ← keys]
    exact nodup_texts distinct

theorem Reordered.alike {term other : Term} (h : term.Reordered other) (distinct : term.Distinct)
    (depth : Nat) : (term.tree depth).Alike (other.tree depth) := by
  induction depth generalizing term other with
  | zero =>
      cases h with
      | array | object => exact .unreadable 0 0 _ _
      | null | bool | number | text => exact alike_leaf _
  | succ depth ih =>
      cases h with
      | array pairs =>
          cases distinct with
          | array each =>
              refine .array 0 0 0 0 0 0 ?_
              simp only [List.forall₂_map_left_iff, List.forall₂_map_right_iff]
              have distinctPairs := (List.forall₂_and_left _ _).mpr ⟨each, pairs⟩
              exact distinctPairs.imp fun _ _ ⟨distinct, same⟩ => ih same distinct
      | object keys values order =>
          cases distinct with
          | object nodup each =>
              have distinctValues := (List.forall₂_and_left _ _).mpr
                ⟨List.forall_mem_map.mpr each, values⟩
              refine alike_objects nodup keys ?_ order
              exact distinctValues.imp fun _ _ ⟨distinct, same⟩ => ih same distinct
      | null | bool | number | text => exact alike_leaf _

end Term

theorem Document.ofBytes_written {term : Term} {bytes : Bytes} (h : term.DocumentWritten bytes) :
    ∃ node, Document.ofBytes bytes = ⟨node, none⟩ ∧ node.Alike (term.tree Document.maxDepth) := by
  obtain ⟨before, text, after, hb, hs, ha, rfl⟩ := h
  have parses := hs.parses ((before ++ text ++ after).length + 1) Document.maxDepth
    (by simp; omega)
  obtain ⟨node, read, alike⟩ := parses before after 0 hb (stops_blank ha)
  refine ⟨node, ?_, alike⟩
  simp only [Document.ofBytes, read, skipBlanks_all ha]

end PodWebhook.Json
