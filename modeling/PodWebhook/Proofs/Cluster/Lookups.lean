import Mathlib.Data.List.Forall2
import PodWebhook.Cluster.Reader
import PodWebhook.Proofs.Http.Segments
import PodWebhook.Proofs.Http.Targets

/-!
What is asked for when a namespace is looked up. A name goes into the path as it is: a slash in it
begins another segment, a question mark a query, a hash cuts the rest off, and a percent sign is
read as an escape. A name without these asks for the namespace of that name or for nothing; any
other name asks for something else or for nothing.
-/

namespace PodWebhook

namespace ClusterReader

open Http

def collection : String := "/api/v1/namespaces/"

/-- The name of the namespace that a server takes a target for. -/
def namespaceOf? (target : Target) : Option String :=
  if target.query.isSome then none
  else (target.path.toList.dropPrefix? collection.toList).bind fun cs => segmentText? (.ofList cs)

theorem namespaceOf?_append (segment : String) (query : Option String) :
    namespaceOf? ⟨collection ++ segment, query⟩ =
      if query.isSome then none else segmentText? segment := by
  have dropped : (collection ++ segment).toList.dropPrefix? collection.toList =
      some segment.toList := by
    rw [String.toList_append]
    exact List.dropPrefix?_append_of_beq _ (beq_self_eq_true _)
  rw [namespaceOf?, dropped, Option.bind_some, String.ofList_toList]

example : namespaceOf? ⟨"/api/v1/namespaces/a%2Fb", none⟩ = some "a/b" := by decide +kernel

structure Asks (name : String) (target : Target) : Prop where
  nonempty : name ≠ ""
  short : (collection ++ name).utf8ByteSize ≤ Target.maxLength
  parts : ∃ path query fragment, Parted name.toList path query fragment ∧ Allowed path query ∧
    target = ⟨collection ++ String.ofList path, query.map String.ofList⟩

theorem allowed_collection (path : List Char) (query : Option (List Char)) :
    Allowed (collection.toList ++ path) query ↔ Allowed path query := by
  have plain : ∀ c ∈ collection.toList, Target.isPathChar c = true :=
    List.all_eq_true.mp (by decide)
  rw [Allowed, List.forall_mem_append, and_iff_right plain]
  rfl

theorem parse_collection {name : String} {path : List Char} {query fragment : Option (List Char)}
    (h : Parted name.toList path query fragment) :
    Target.parse (collection ++ name) =
      if Target.maxLength < (collection ++ name).utf8ByteSize then .error .tooLong
      else if Allowed path query then
        .ok ⟨collection ++ String.ofList path, query.map String.ofList⟩
      else .error .invalidCharacter := by
  have whole : Parted (collection ++ name).toList (collection.toList ++ path) query fragment := by
    rw [String.toList_append]
    exact h.prepend (by decide)
  have rooted : (if (collection.toList ++ path).isEmpty then "/"
      else String.ofList (collection.toList ++ path)) = collection ++ String.ofList path := by
    rw [String.ofList_append, String.ofList_toList]
    rfl
  rw [Target.parse_rooted (String.toList_append ..), Target.ofPathAndQuery_parted whole, rooted,
    if_congr (allowed_collection path query) rfl rfl]

section

variable {name : String} {target : Target}

theorem namespaceTarget_eq_ok_iff :
    namespaceTarget name = .ok target ↔
      name ≠ "" ∧ Target.parse (collection ++ name) = .ok target := by
  by_cases empty : name = ""
  · subst empty
    exact iff_of_false nofun fun h => h.1 rfl
  · rw [namespaceTarget, if_neg (mt String.isEmpty_iff.mp empty), and_iff_right empty, collection]
    split
    · next parsed => rw [parsed, Except.ok.injEq, Except.ok.injEq]
    · next parsed =>
      rw [parsed]
      exact iff_of_false nofun nofun

theorem asks_iff : Asks name target ↔ namespaceTarget name = .ok target := by
  rw [namespaceTarget_eq_ok_iff]
  constructor
  · rintro ⟨nonempty, short, path, query, fragment, parted, allowed, rfl⟩
    rw [parse_collection parted, if_neg (Nat.not_lt.mpr short), if_pos allowed]
    exact ⟨nonempty, rfl⟩
  · rintro ⟨nonempty, parsed⟩
    obtain ⟨path, query, fragment, parted⟩ := exists_parted name.toList
    rw [parse_collection parted] at parsed
    split at parsed
    · cases parsed
    · next short =>
      split at parsed
      · next allowed =>
        exact ⟨nonempty, Nat.le_of_not_lt short, path, query, fragment, parted, allowed,
          (Except.ok.inj parsed).symm⟩
      · cases parsed

theorem Asks.toText (h : Asks name target) :
    target.toText = collection ++ String.ofList (Target.dropFragment name.toList) := by
  obtain ⟨path, query, fragment, parted, -, rfl⟩ := h.parts
  rw [parted.dropFragment, Target.toText]
  cases query with
  | none => simp
  | some cs => simp [String.append_assoc]

/-- A target stands for the name that is asked for there if the name is confined, and only then. -/
theorem Asks.namespaceOf?_eq_some_iff (h : Asks name target) :
    namespaceOf? target = some name ↔ Confined name := by
  obtain ⟨path, query, fragment, parted, -, rfl⟩ := h.parts
  rw [namespaceOf?_append, Option.ite_none_left_eq_some]
  constructor
  · rintro ⟨unasked, stands⟩
    obtain rfl : query = none := by simpa using unasked
    have whole : name.toList = (String.ofList path).toList ++ fragment.elim [] ('#' :: ·) := by
      simpa using parted.whole
    obtain ⟨nothing, noSlash, noPercent, named⟩ := segmentText?_front whole stands
    rw [nothing, List.append_nil, String.toList_inj] at whole
    subst whole
    refine ⟨?_, named⟩
    rintro c member special
    rw [String.toList_ofList] at member noSlash noPercent
    simp only [List.mem_cons, List.not_mem_nil, or_false] at special
    rcases special with rfl | rfl | rfl | rfl
    · exact noSlash member
    · exact parted.path.1 member
    · exact parted.path.2 member
    · exact noPercent member
  · intro confined
    have noMark : '?' ∉ name.toList := confined.not_mem (by decide)
    have noHash : '#' ∉ name.toList := confined.not_mem (by decide)
    cases query with
    | some cs => exact absurd (by simp [parted.whole]) noMark
    | none =>
        cases fragment with
        | some cs => exact absurd (by simp [parted.whole]) noHash
        | none =>
            have whole : name.toList = path := by simpa using parted.whole
            rw [← whole, String.ofList_toList]
            exact ⟨nofun, segmentText?_of_confined confined⟩

theorem Asks.toText_eq_iff {other : String} {place : Target} (h : Asks name target)
    (h' : Asks other place) :
    target.toText = place.toText ↔
      Target.dropFragment name.toList = Target.dropFragment other.toList := by
  rw [h.toText, h'.toText, String.append_right_inj, String.ofList_inj]

end

/-- What comes of a look-up. It fails and nothing is sent, as the name cannot be asked for, or its
target is asked, once, and the reply is the result. -/
inductive Comes (serve : Target → Reply) (name : String) : Lookup → Prop where
  | unsent {error : ClusterError} (never : ∀ target, ¬ Asks name target) :
      Comes serve name ⟨none, .error error⟩
  | sent {target : Target} (asks : Asks name target) :
      Comes serve name ⟨some target, readReply (serve target)⟩

theorem comes_getNamespace (serve : Target → Reply) (name : String) :
    Comes serve name ((connected serve).getNamespace name) := by
  rw [getNamespace]
  cases made : namespaceTarget name with
  | ok target => exact .sent (asks_iff.mpr made)
  | error error =>
      refine .unsent fun target asks => ?_
      rw [asks_iff, made] at asks
      cases asks

/-- Names that are looked up one after the other, by a reader that may be another one each time. -/
def lookUps (reader : Nat → ClusterReader) (names : List String) : List Lookup :=
  names.zipIdx.map fun named => (reader named.2).getNamespace named.1

theorem forall₂_lookUps {reader : Nat → ClusterReader} {names : List String}
    {p : String × Nat → Lookup → Prop} :
    List.Forall₂ p names.zipIdx (lookUps reader names) ↔
      ∀ named ∈ names.zipIdx, p named ((reader named.2).getNamespace named.1) := by
  rw [lookUps, List.forall₂_map_right_iff, List.forall₂_same]

def Reaches (name : String) (lookup : Lookup) : Prop :=
  (lookup.asked = none ∧ ∃ error, lookup.result = .error error) ∨
    ∃ target, lookup.asked = some target ∧ namespaceOf? target = some name

theorem reaches_getNamespace_iff (serve : Target → Reply) (name : String) :
    Reaches name ((connected serve).getNamespace name) ↔
      Confined name ∨ ∀ target, ¬ Asks name target := by
  generalize found : (connected serve).getNamespace name = lookup
  have comes : Comes serve name lookup := found ▸ comes_getNamespace serve name
  cases comes with
  | unsent never => exact iff_of_true (.inl ⟨rfl, _, rfl⟩) (.inr never)
  | sent asks =>
      rw [or_iff_left fun never => never _ asks, ← asks.namespaceOf?_eq_some_iff]
      constructor
      · rintro (⟨unsent, -⟩ | ⟨target, sent, named⟩)
        · cases unsent
        · obtain rfl := Option.some.inj sent
          exact named
      · exact fun named => .inr ⟨_, rfl, named⟩

/-- Every name reaches its namespace or nothing, and names that differ are asked for apart. -/
structure Faithful (names : List String) (lookups : List Lookup) : Prop where
  each : List.Forall₂ Reaches names lookups
  apart : ∀ one ∈ names.zip lookups, ∀ other ∈ names.zip lookups, ∀ target place,
    one.2.asked = some target → other.2.asked = some place → target.toText = place.toText →
      one.1 = other.1

theorem Reaches.named {name : String} {lookup : Lookup} {target : Target}
    (h : Reaches name lookup) (sent : lookup.asked = some target) :
    namespaceOf? target = some name := by
  rcases h with ⟨unsent, -⟩ | ⟨asked, same, named⟩
  · rw [unsent] at sent
    cases sent
  · obtain rfl := Option.some.inj (same.symm.trans sent)
    exact named

theorem eq_of_toText_eq {name other : String} {target place : Target}
    (h : namespaceOf? target = some name) (h' : namespaceOf? place = some other)
    (same : target.toText = place.toText) : name = other := by
  rw [namespaceOf?, Option.ite_none_left_eq_some] at h h'
  have query : target.query = none := by simpa using h.1
  have query' : place.query = none := by simpa using h'.1
  simp only [Target.toText, query, query'] at same
  exact Option.some.inj ((same ▸ h.2).symm.trans h'.2)

theorem faithful_iff {names : List String} {lookups : List Lookup} :
    Faithful names lookups ↔ List.Forall₂ Reaches names lookups := by
  refine ⟨Faithful.each, fun each => ⟨each, ?_⟩⟩
  rintro ⟨name, one⟩ member ⟨other, lookup⟩ member' target place sent sent' same
  have reaches := (List.forall₂_iff_zip.mp each).2 member
  have reaches' := (List.forall₂_iff_zip.mp each).2 member'
  exact eq_of_toText_eq (reaches.named sent) (reaches'.named sent') same

theorem faithful_lookUps_iff (serve : Nat → Target → Reply) (names : List String) :
    Faithful names (lookUps (fun turn => connected (serve turn)) names) ↔
      ∀ name ∈ names, Confined name ∨ ∀ target, ¬ Asks name target := by
  have each : List.Forall₂ Reaches (names.zipIdx.map Prod.fst)
      (lookUps (fun turn => connected (serve turn)) names) ↔
      ∀ name ∈ names.zipIdx.map Prod.fst, Confined name ∨ ∀ target, ¬ Asks name target := by
    rw [List.forall₂_map_left_iff, forall₂_lookUps, List.forall_mem_map]
    exact forall₂_congr fun _ _ => reaches_getNamespace_iff _ _
  rwa [List.zipIdx_map_fst, ← faithful_iff] at each

/-- Without a connection look-ups fail and nothing is sent. With one, whatever the server replies,
every name is asked for once or not at all. That is as it should be exactly if no name is sent that
is not confined. Any two names are asked for under one URI exactly if they do not differ before a
hash. -/
theorem lookUps_ask (serve : Nat → Target → Reply) (names : List String) :
    lookUps (fun _ => offline) names = names.map (fun _ => ⟨none, .error .notConnected⟩) ∧
    List.Forall₂ (fun named lookup => Comes (serve named.2) named.1 lookup) names.zipIdx
      (lookUps (fun turn => connected (serve turn)) names) ∧
    (Faithful names (lookUps (fun turn => connected (serve turn)) names) ↔
      ∀ name ∈ names, Confined name ∨ ∀ target, ¬ Asks name target) ∧
    ∀ name ∈ names, ∀ other ∈ names, ∀ target place, Asks name target → Asks other place →
      (target.toText = place.toText ↔
        Target.dropFragment name.toList = Target.dropFragment other.toList) := by
  refine ⟨?_, ?_, faithful_lookUps_iff serve names, ?_⟩
  · change names.zipIdx.map (fun _ => Lookup.mk none (.error .notConnected)) = _
    rw [List.map_const', List.map_const', List.length_zipIdx]
  · exact forall₂_lookUps.mpr fun named _ => comes_getNamespace (serve named.2) named.1
  · exact fun _ _ _ _ _ _ asks asks' => asks.toText_eq_iff asks'

/-- A name with a slash in it asks for the pods of a namespace, and one with a hash for another
namespace. -/
theorem lookUps_ask_pods :
    let names := ["kyma-system", "kyma-system/pods", "kyma-system#1"]
    let lookups := lookUps (fun _ => connected fun _ => ⟨200, []⟩) names
    let itself : Target := ⟨"/api/v1/namespaces/kyma-system", none⟩
    let pods : Target := ⟨"/api/v1/namespaces/kyma-system/pods", none⟩
    lookups.map (·.asked) = [some itself, some pods, some itself] ∧
      ¬ Faithful names lookups ∧ pods.toText ≠ itself.toText := by
  intro names lookups itself pods
  obtain ⟨-, -, faithful, alike⟩ := lookUps_ask (fun _ _ => ⟨200, []⟩) names
  have asksItself : Asks "kyma-system" itself := asks_iff.mpr rfl
  have asksPods : Asks "kyma-system/pods" pods := asks_iff.mpr rfl
  refine ⟨by decide +kernel, fun all => ?_, ?_⟩
  · rcases faithful.mp all "kyma-system/pods" (by decide) with confined | never
    · exact confined.not_mem (c := '/') (by decide) (by decide)
    · exact never _ asksPods
  · rw [Ne, alike _ (by decide) _ (by decide) _ _ asksPods asksItself]
    decide

end ClusterReader

end PodWebhook
