import PodWebhook.Http.Router
import PodWebhook.Proofs.Http.Parameters
import PodWebhook.Proofs.Json.Units
import PodWebhook.Proofs.Outcomes
import PodWebhook.Proofs.Text.Fronts

/-!
Which content types are accepted. Only the first value of the header counts. It has to be plain text
and to name JSON, in letters of either case; behind the name there is nothing, or a semicolon and
parameters. Whatever else it is, it stands in the refusal.
-/

namespace PodWebhook.Http

theorem eq_of_toLower_eq {c d : Char} (h : c.toLower = d) (other : ¬ ('a' ≤ d ∧ d ≤ 'z')) :
    c = d := by
  by_cases upper : c.val ≥ 'A'.val ∧ c.val ≤ 'Z'.val
  · have value : d.val = c.val + ('a'.val - 'A'.val) := by
      have lowered : c.toLower = ⟨c.val + ('a'.val - 'A'.val), _⟩ := dif_pos upper
      rw [← h, lowered]
    have low : 65 ≤ c.val.toNat := upper.1
    have high : c.val.toNat ≤ 90 := upper.2
    have number : d.val.toNat = c.val.toNat + 32 := by
      rw [value, UInt32.toNat_add]
      change (c.val.toNat + 32) % 4294967296 = _
      omega
    refine absurd ⟨?_, ?_⟩ other
    · change 97 ≤ d.val.toNat
      omega
    · change d.val.toNat ≤ 122
      omega
  · have same : c.toLower = c := dif_neg upper
    rw [← h, same]

theorem isTokenChar_of_toLower {c : Char} (h : isTokenChar c.toLower = true) :
    isTokenChar c = true := by
  by_cases upper : 'A' ≤ c ∧ c ≤ 'Z'
  · simp [isTokenChar, upper.1, upper.2]
  · have same : c.toLower = c := dif_neg upper
    rwa [same] at h

namespace MediaType

/-- What may stand behind type and subtype. -/
inductive Tail : List Char → Prop
  | nothing : Tail []
  | parameters {cs : List Char} (h : Parameters cs) : Tail (';' :: cs)

/-- The media type of JSON, without blanks around it. -/
def IsJson (text : List Char) : Prop :=
  ∃ essence tail, text = essence ++ tail ∧
    essence.map Char.toLower = "application/json".toList ∧ Tail tail

def Behind (tail : List Char) : Prop := tail = [] ∨ ∃ rest, tail = ';' :: rest

theorem exists_essence (text : List Char) :
    ∃ essence tail, text = essence ++ tail ∧ ';' ∉ essence ∧ Behind tail := by
  obtain ⟨essence, tail, free, rfl⟩ := Text.exists_cut ';' text
  refine ⟨essence, _, rfl, free, ?_⟩
  cases tail with
  | none => exact .inl rfl
  | some tail => exact .inr ⟨tail, rfl⟩

theorem splitParams_append {essence tail : List Char} (free : ';' ∉ essence) (h : Behind tail) :
    splitParams (essence ++ tail) = (essence, tail.tail?) := by
  have taken : (essence ++ tail).takeWhile (· != ';') = essence := by
    rcases h with rfl | ⟨rest, rfl⟩
    · exact Text.takeWhile_cut free none
    · exact Text.takeWhile_cut free (some rest)
  simp only [splitParams, taken, List.drop_left]

theorem all_isTokenChar_of_map {cs : List Char}
    (h : (cs.map Char.toLower).all isTokenChar = true) : cs.all isTokenChar = true := by
  rw [List.all_eq_true] at h ⊢
  exact fun c hc => isTokenChar_of_toLower (h _ (List.mem_map_of_mem hc))

theorem isEssence_json {essence : List Char}
    (h : essence.map Char.toLower = "application/json".toList) : isEssence essence = true := by
  obtain ⟨type, rest, rfl, typed, behind⟩ :=
    List.map_eq_append_iff.mp (h.trans (rfl : _ = "application".toList ++ "/json".toList))
  obtain ⟨slash, subtype, rfl, isSlash, subtyped⟩ := List.map_eq_cons_iff.mp behind
  obtain rfl : slash = '/' := eq_of_toLower_eq isSlash (by decide)
  have typeTokens : type.all isTokenChar = true := all_isTokenChar_of_map (by rw [typed]; decide)
  have subtypeTokens : subtype.all isTokenChar = true :=
    all_isTokenChar_of_map (by rw [subtyped]; decide)
  have noSlash : '/' ∉ type := fun member =>
    ne_of_isTokenChar (List.all_eq_true.mp typeTokens _ member) (by decide) rfl
  have taken : (type ++ '/' :: subtype).takeWhile (· != '/') = type :=
    Text.takeWhile_cut noSlash (some subtype)
  have dropped : (type ++ '/' :: subtype).drop (type.length + 1) = subtype := by
    rw [List.drop_append]
    simp
  have typeNonempty : type ≠ [] := by
    rintro rfl
    exact absurd typed (by decide)
  have subtypeNonempty : subtype ≠ [] := by
    rintro rfl
    exact absurd subtyped (by decide)
  simp only [isEssence, taken, dropped, typeTokens, subtypeTokens]
  simp [typeNonempty, subtypeNonempty]

theorem not_mem_json {essence : List Char}
    (h : essence.map Char.toLower = "application/json".toList) : ';' ∉ essence := by
  intro member
  have mapped : ';' ∈ essence.map Char.toLower := List.mem_map.mpr ⟨';', member, by decide⟩
  rw [h] at mapped
  exact absurd mapped (by decide)

theorem tail_iff {tail : List Char} (h : Behind tail) :
    (match tail.tail? with
      | some params => areParams params
      | none => true) = true ↔ Tail tail := by
  rcases h with rfl | ⟨rest, rfl⟩
  · exact iff_of_true rfl .nothing
  · refine areParams_iff.trans ⟨.parameters, fun h => ?_⟩
    cases h with
    | parameters h => exact h

theorem isJsonType_append {essence tail : List Char} (free : ';' ∉ essence) (h : Behind tail) :
    isJsonType (String.ofList (essence ++ tail)) = true ↔
      essence.map Char.toLower = "application/json".toList ∧ Tail tail := by
  rw [isJsonType, String.toList_ofList, splitParams_append free h]
  simp only [Bool.and_eq_true, beq_iff_eq]
  constructor
  · rintro ⟨⟨-, named⟩, ok⟩
    exact ⟨named, (tail_iff h).mp ok⟩
  · rintro ⟨named, ok⟩
    exact ⟨⟨isEssence_json named, named⟩, (tail_iff h).mpr ok⟩

theorem Tail.behind {tail : List Char} (h : Tail tail) : Behind tail := by
  cases h with
  | nothing => exact .inl rfl
  | parameters h => exact .inr ⟨_, rfl⟩

theorem isJsonType_iff (text : String) : isJsonType text = true ↔ IsJson text.toList := by
  obtain ⟨essence, tail, split, free, behind⟩ := exists_essence text.toList
  have judged := isJsonType_append free behind
  rw [← split, String.ofList_toList] at judged
  rw [judged]
  constructor
  · rintro ⟨named, ok⟩
    exact ⟨essence, tail, split, named, ok⟩
  · rintro ⟨essence', tail', split', named, ok⟩
    have again := isJsonType_append (not_mem_json named) ok.behind
    rw [← split', String.ofList_toList, judged] at again
    exact again.mpr ⟨named, ok⟩

end MediaType

namespace Headers

def First (headers : Headers) (named : String → Prop) (value : Bytes) : Prop :=
  ∃ before name after, headers = before ++ (name, value) :: after ∧ named name ∧
    ∀ h ∈ before, ¬ named h.1

def IsPlain (c : Char) : Prop := c = '\t' ∨ ' ' ≤ c ∧ c ≤ '~'

def Plain (value : Bytes) (text : String) : Prop :=
  value = Bytes.utf8 text ∧ ∀ c ∈ text.toList, IsPlain c

theorem first?_eq_some_iff {headers : Headers} {name : String} {value : Bytes} :
    headers.first? name = some value ↔ headers.First (· = name) value := by
  have found : headers.first? name = (headers.find? fun h => h.1 == name).map (·.2) := by
    rw [first?]
    cases headers.find? fun h => h.1 == name <;> rfl
  rw [found, Option.map_eq_some_iff]
  constructor
  · rintro ⟨⟨other, value⟩, search, rfl⟩
    obtain ⟨same, before, after, split, others⟩ := List.find?_eq_some_iff_append.mp search
    exact ⟨before, other, after, split, by simpa using same, by simpa using others⟩
  · rintro ⟨before, other, after, split, same, others⟩
    refine ⟨(other, value), List.find?_eq_some_iff_append.mpr ⟨by simpa using same, ?_⟩, rfl⟩
    exact ⟨before, after, split, by simpa using others⟩

theorem isPlain_iff {c : Char} {b : UInt8} (same : c.toNat = b.toNat) :
    IsPlain c ↔ (b == 0x09 || (0x20 ≤ b && b < 0x7f)) = true := by
  have tab : c = '\t' ↔ b = 0x09 := by
    rw [← Char.toNat_inj, same, ← UInt8.toNat_inj]
    rfl
  have visible : ' ' ≤ c ∧ c ≤ '~' ↔ 0x20 ≤ b ∧ b < 0x7f := by
    change 0x20 ≤ c.toNat ∧ c.toNat ≤ 0x7e ↔ 0x20 ≤ b.toNat ∧ b.toNat < 0x7f
    omega
  simp [IsPlain, tab, visible]

theorem toNat_lt_of_isPlain {c : Char} (h : IsPlain c) : c.toNat < 0x7f := by
  rcases h with rfl | ⟨-, high⟩
  · decide
  · exact Nat.lt_succ_of_le high

theorem utf8EncodeChar_of_isPlain {c : Char} (h : IsPlain c) :
    String.utf8EncodeChar c = [UInt8.ofNat c.toNat] := by
  have small : c.val.toNat ≤ 127 := Nat.le_of_lt (toNat_lt_of_isPlain h)
  simp only [String.utf8EncodeChar, if_pos small]
  rfl

theorem utf8_of_isPlain {cs : List Char} (h : ∀ c ∈ cs, IsPlain c) :
    Bytes.utf8 (String.ofList cs) = cs.map fun c => UInt8.ofNat c.toNat := by
  rw [Json.utf8_eq_flatMap, String.toList_ofList]
  induction cs with
  | nil => rfl
  | cons c cs ih =>
      obtain ⟨first, others⟩ := List.forall_mem_cons.mp h
      rw [List.flatMap_cons, utf8EncodeChar_of_isPlain first, ih others]
      rfl

theorem text?_eq_some_iff {value : Bytes} {text : String} :
    text? value = some text ↔ Plain value text := by
  have charOf (b : UInt8) : (Char.ofNat b.toNat).toNat = b.toNat := by
    have bound := b.toNat_lt
    exact Json.toNat_ofNat_of_valid (.inl (by omega))
  constructor
  · intro h
    rw [text?] at h
    split at h
    · next all =>
      obtain rfl := Option.some.inj h
      have plain : ∀ c ∈ value.map fun b => Char.ofNat b.toNat, IsPlain c := by
        rintro c member
        obtain ⟨b, hb, rfl⟩ := List.mem_map.mp member
        exact (isPlain_iff (charOf b)).mpr (List.all_eq_true.mp all b hb)
      refine ⟨?_, by rwa [String.toList_ofList]⟩
      rw [utf8_of_isPlain plain, List.map_map]
      simp [Function.comp_def, charOf]
    · cases h
  · rintro ⟨rfl, plain⟩
    obtain ⟨cs, rfl⟩ : ∃ cs, text = String.ofList cs := ⟨text.toList, String.ofList_toList.symm⟩
    rw [String.toList_ofList] at plain
    have byteOf (c : Char) (hc : c ∈ cs) : c.toNat = (UInt8.ofNat c.toNat).toNat := by
      have bound := toNat_lt_of_isPlain (plain c hc)
      rw [UInt8.toNat_ofNat', Nat.mod_eq_of_lt (by omega)]
    have back : (cs.map fun c => UInt8.ofNat c.toNat).map (fun b => Char.ofNat b.toNat) = cs := by
      rw [List.map_map]
      refine (List.map_congr_left fun c hc => ?_).trans (List.map_id cs)
      rw [Function.comp_apply, ← byteOf c hc, Char.ofNat_toNat]
      rfl
    rw [utf8_of_isPlain plain, text?, back, if_pos]
    rw [List.all_map, List.all_eq_true]
    exact fun c hc => (isPlain_iff (byteOf c hc)).mp (plain c hc)

/-- The text of the first content type. -/
def Declares (headers : Headers) (text : String) : Prop :=
  ∃ value, headers.First (· = "content-type") value ∧ Plain value text

theorem make_eq_map {raw headers : Headers} (h : make raw = .ok headers) :
    headers =
      raw.map fun header => (String.ofList (header.1.toList.map Char.toLower), header.2) := by
  rw [make] at h
  induction raw generalizing headers with
  | nil => exact (Except.ok.inj h).symm
  | cons header raw ih =>
      rw [List.mapM_cons] at h
      obtain ⟨kept, made, h⟩ := bind_eq_ok_iff.mp h
      obtain ⟨rest, others, done⟩ := bind_eq_ok_iff.mp h
      split at made
      · cases made
      · split at made
        · cases made
        · rw [← Except.ok.inj done, ← Except.ok.inj made, List.map_cons, ← ih others]

theorem first_make {raw headers : Headers} (h : make raw = .ok headers) (value : Bytes) :
    headers.First (· = "content-type") value ↔
      Headers.First raw (fun name => name.toList.map Char.toLower = "content-type".toList)
        value := by
  have named (name : String) : String.ofList (name.toList.map Char.toLower) = "content-type" ↔
      name.toList.map Char.toLower = "content-type".toList := by
    rw [← String.toList_inj, String.toList_ofList]
  rw [make_eq_map h]
  constructor
  · rintro ⟨before, name, after, split, same, others⟩
    obtain ⟨first, rest, rfl, rfl, tail⟩ := List.map_eq_append_iff.mp split
    obtain ⟨header, last, rfl, made, -⟩ := List.map_eq_cons_iff.mp tail
    obtain ⟨rfl, rfl⟩ := Prod.mk.inj made
    refine ⟨first, header.1, last, rfl, (named _).mp same, fun other member => ?_⟩
    exact fun lower => others _ (List.mem_map_of_mem member) ((named _).mpr lower)
  · rintro ⟨before, name, after, rfl, same, others⟩
    refine ⟨_, _, _, by rw [List.map_append, List.map_cons], (named name).mpr same, ?_⟩
    rintro _ member lower
    obtain ⟨other, hother, rfl⟩ := List.mem_map.mp member
    exact others other hother ((named _).mp lower)

end Headers

theorem contentType_of_declares {headers : Headers} {text : String} (h : headers.Declares text) :
    contentType headers = text := by
  obtain ⟨value, first, plain⟩ := h
  rw [contentType, Headers.first?_eq_some_iff.mpr first, Option.bind_some,
    Headers.text?_eq_some_iff.mpr plain, Option.getD_some]

theorem contentType_of_not_declares {headers : Headers} (h : ∀ text, ¬ headers.Declares text) :
    contentType headers = "" := by
  rw [contentType]
  cases read : (headers.first? "content-type").bind Headers.text? with
  | none => rfl
  | some text =>
      obtain ⟨value, first, plain⟩ := Option.bind_eq_some_iff.mp read
      exact absurd ⟨value, Headers.first?_eq_some_iff.mp first, Headers.text?_eq_some_iff.mp plain⟩
        (h text)

theorem contentType_cases (headers : Headers) :
    headers.Declares (contentType headers) ∨
      contentType headers = "" ∧ ∀ text, ¬ headers.Declares text := by
  by_cases declared : ∃ text, headers.Declares text
  · obtain ⟨text, h⟩ := declared
    exact .inl ((contentType_of_declares h).symm ▸ h)
  · have none : ∀ text, ¬ headers.Declares text := not_exists.mp declared
    exact .inr ⟨contentType_of_not_declares none, none⟩

theorem checkContentType_of_not_json {headers : Headers}
    (h : ¬ MediaType.IsJson (contentType headers).toList) :
    checkContentType headers = .error (.unsupportedContentType (contentType headers)) :=
  if_neg fun json => h ((MediaType.isJsonType_iff _).mp json)

theorem checkContentType_iff_json {headers : Headers} :
    checkContentType headers = .ok () ↔ MediaType.IsJson (contentType headers).toList := by
  constructor
  · intro accepted
    by_contra other
    rw [checkContentType_of_not_json other] at accepted
    cases accepted
  · exact fun json => if_pos ((MediaType.isJsonType_iff _).mpr json)

theorem checkContentType_of_declares {headers : Headers} {text : String}
    (h : headers.Declares text) :
    checkContentType headers = .ok () ↔ MediaType.IsJson text.toList := by
  rw [checkContentType_iff_json, contentType_of_declares h]

theorem not_isJson_empty : ¬ MediaType.IsJson "".toList := by
  rintro ⟨essence, tail, split, named, -⟩
  obtain ⟨rfl, -⟩ := List.append_eq_nil_iff.mp split.symm
  exact absurd named (by decide)

theorem checkContentType_eq_ok_iff {headers : Headers} :
    checkContentType headers = .ok () ↔
      ∃ text, headers.Declares text ∧ MediaType.IsJson text.toList := by
  constructor
  · intro accepted
    have json := checkContentType_iff_json.mp accepted
    rcases contentType_cases headers with declared | ⟨empty, -⟩
    · exact ⟨_, declared, json⟩
    · exact absurd (empty ▸ json) not_isJson_empty
  · exact fun ⟨text, declared, json⟩ => (checkContentType_of_declares declared).mpr json

theorem checkContentType_eq_error_iff {headers : Headers} {error : GatewayError} :
    checkContentType headers = .error error ↔
      ∃ text, error = .unsupportedContentType text ∧ ¬ MediaType.IsJson text.toList ∧
        (headers.Declares text ∨ text = "" ∧ ∀ other, ¬ headers.Declares other) := by
  constructor
  · intro refused
    have other : ¬ MediaType.IsJson (contentType headers).toList := by
      intro json
      rw [checkContentType_iff_json.mpr json] at refused
      cases refused
    rw [checkContentType_of_not_json other] at refused
    exact ⟨_, (Except.error.inj refused).symm, other, contentType_cases headers⟩
  · rintro ⟨text, rfl, other, found⟩
    have read : contentType headers = text := by
      rcases found with declared | ⟨rfl, none⟩
      · exact contentType_of_declares declared
      · exact contentType_of_not_declares none
    rw [checkContentType_of_not_json (read ▸ other), read]

theorem checkContentType_congr {headers others : Headers}
    (same : ∀ value, others.First (· = "content-type") value ↔
      headers.First (· = "content-type") value) :
    checkContentType others = checkContentType headers := by
  have first : others.first? "content-type" = headers.first? "content-type" := by
    refine Option.ext fun value => ?_
    rw [Headers.first?_eq_some_iff, Headers.first?_eq_some_iff, same]
  rw [checkContentType, checkContentType, contentType, contentType, first]

namespace MediaType

theorem isJson_append {essence tail : List Char} (free : ';' ∉ essence) (h : Behind tail) :
    IsJson (essence ++ tail) ↔
      essence.map Char.toLower = "application/json".toList ∧ Tail tail := by
  have judged := isJsonType_append free h
  rwa [isJsonType_iff, String.toList_ofList] at judged

theorem not_mem_of_map_eq {essence other : List Char}
    (same : essence.map Char.toLower = other.map Char.toLower) (free : ';' ∉ essence) :
    ';' ∉ other := by
  intro member
  have mapped : ';' ∈ essence.map Char.toLower := by
    rw [same]
    exact List.mem_map.mpr ⟨';', member, by decide⟩
  obtain ⟨c, hc, lower⟩ := List.mem_map.mp mapped
  exact free (eq_of_toLower_eq lower (by decide) ▸ hc)

end MediaType

section

open MediaType

/-- A request is let in by the first value under the name of the content type, in whatever case the
name is written, and by nothing else: this has to be plain text that says JSON, with or without
parameters. Of two values that differ only in the case of the letters before the first semicolon
both are let in or none. Any other media type is refused, and a refusal says what was found. -/
theorem checkContentType_decides (headers : Headers) :
    (checkContentType headers = .ok () ↔
      ∃ text, headers.Declares text ∧ IsJson text.toList) ∧
    (∀ error, checkContentType headers = .error error ↔
      ∃ text, error = .unsupportedContentType text ∧ ¬ IsJson text.toList ∧
        (headers.Declares text ∨ text = "" ∧ ∀ other, ¬ headers.Declares other)) ∧
    (∀ others : Headers,
      (∀ value, others.First (· = "content-type") value ↔
        headers.First (· = "content-type") value) →
      checkContentType others = checkContentType headers) ∧
    (∀ essence tail, ';' ∉ essence → Behind tail →
      headers.Declares (String.ofList (essence ++ tail)) →
      (essence.map Char.toLower ≠ "application/json".toList →
        checkContentType headers =
          .error (.unsupportedContentType (String.ofList (essence ++ tail)))) ∧
      ∀ (others : Headers) (other : List Char),
        others.Declares (String.ofList (other ++ tail)) →
        essence.map Char.toLower = other.map Char.toLower →
        (checkContentType headers = .ok () ↔ checkContentType others = .ok ())) ∧
    ∀ raw : Headers, Headers.make raw = .ok headers → ∀ value,
      headers.First (· = "content-type") value ↔
        raw.First (fun name => name.toList.map Char.toLower = "content-type".toList) value := by
  refine ⟨checkContentType_eq_ok_iff, fun error => checkContentType_eq_error_iff,
    fun others => checkContentType_congr, fun essence tail free behind declared => ⟨?_, ?_⟩,
    fun raw made value => Headers.first_make made value⟩
  · intro foreign
    refine checkContentType_eq_error_iff.mpr ⟨_, rfl, ?_, .inl declared⟩
    rw [String.toList_ofList, isJson_append free behind]
    exact fun json => foreign json.1
  · intro others other othersDeclared same
    rw [checkContentType_of_declares declared, checkContentType_of_declares othersDeclared,
      String.toList_ofList, String.toList_ofList, isJson_append free behind,
      isJson_append (not_mem_of_map_eq same free) behind, same]

end

end PodWebhook.Http
