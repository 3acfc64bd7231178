import PodWebhook.Proofs.Admission.Patching

/-!
Rounds of admission. An object comes before several policies, one after the other, and each of them
sees it as the patches of the rounds before have left it.
-/

namespace PodWebhook

def AdmissionRequest.withObject (request : AdmissionRequest) (object : Json) : AdmissionRequest :=
  { request with object := some object }

namespace AdmissionResponse

theorem allowed_withPatch (response : AdmissionResponse) (patch : Json.Patch) :
    (response.withPatch patch).allowed = response.allowed := by
  rw [withPatch_eq]
  split <;> rfl

theorem isSome_patch_withPatch (response : AdmissionResponse) (patch : Json.Patch) :
    (response.withPatch patch).patch.isSome ↔ patch ≠ [] := by
  rw [withPatch_eq]
  split
  · next empty => simp [List.isEmpty_iff.mp empty]
  · next some => simpa using some

end AdmissionResponse

namespace ImagePolicy

theorem isSome_patch_handle_iff (policy : ImagePolicy) {request : AdmissionRequest} {object : Json}
    {pod : Pod} (kind : request.kind = GroupVersionKind.pod)
    (carries : request.object = some object) (ordered : object.Ordered)
    (read : Pod.ofJson object = .ok pod) :
    (policy.handle request).value.patch.isSome ↔ policy.Selects object ∧
      ∃ item ∈ Pod.containersIn object,
        policy.Names item ∧ item.get? "image" ≠ some (.text policy.image) := by
  have containers := forall₂_containers ordered read
  rw [policy.handle_of_pod kind carries read, AdmissionResponse.isSome_patch_withPatch,
    policy.diff_apply (Pod.tidy_of_ofJson ordered read)]
  by_cases selected : policy.Selects object
  · rw [if_pos ((selects_iff ordered read).mpr selected), Ne, operations_eq_nil_iff]
    push Not
    constructor
    · rintro ⟨c, hc, changed⟩
      obtain ⟨item, hi, parts, data, isRead, rfl⟩ := exists_of_forall₂_right containers hc
      exact ⟨selected, item, hi, (changes_iff isRead).mp changed⟩
    · rintro ⟨-, item, hi, due⟩
      obtain ⟨c, hc, parts, data, isRead, rfl⟩ := exists_of_forall₂_left containers hi
      exact ⟨_, hc, (changes_iff isRead).mpr due⟩
  · have unselected : ¬ policy.selects pod = true := fun selects =>
      selected ((selects_iff ordered read).mp selects)
    simp [unselected, selected]

/-- One round: the policy answers a request about the object, and the patch of its response is made.
-/
def round (request : AdmissionRequest) (object : Json) (policy : ImagePolicy) : Option Json :=
  (policy.handle (request.withObject object)).value.patched? object

def rounds (request : AdmissionRequest) (object : Json) (policies : List ImagePolicy) :
    Option Json :=
  policies.foldlM (round request) object

/-- The image that the last one of the policies to want any puts into a container. -/
def lastImage (policies : List ImagePolicy) (object item : Json) : Option String :=
  policies.reverse.findSome? fun policy => policy.imageFor object item

theorem rounds_snoc (request : AdmissionRequest) (object : Json) (policies : List ImagePolicy)
    (policy : ImagePolicy) : rounds request object (policies ++ [policy]) =
      (rounds request object policies).bind fun current => round request current policy := by
  simp [rounds, List.foldlM_append]

theorem lastImage_append (before after : List ImagePolicy) (object item : Json) :
    lastImage (before ++ after) object item =
      (lastImage after object item).or (lastImage before object item) := by
  rw [lastImage, List.reverse_append, List.findSome?_append]
  rfl

theorem lastImage_singleton (policy : ImagePolicy) (object item : Json) :
    lastImage [policy] object item = policy.imageFor object item := by
  simp [lastImage]

theorem exists_of_lastImage {policies : List ImagePolicy} {object item : Json} {image : String}
    (h : lastImage policies object item = some image) :
    ∃ policy ∈ policies, policy.Selects object ∧ policy.Names item ∧ policy.image = image := by
  obtain ⟨policy, hp, given⟩ := List.exists_of_findSome?_eq_some h
  rw [imageFor] at given
  split at given
  · next chosen => exact ⟨policy, by simpa using hp, chosen.1, chosen.2, Option.some.inj given⟩
  · cases given

theorem lastImage_of_agree (before : List ImagePolicy) {policy : ImagePolicy}
    {after : List ImagePolicy} {object item : Json} (selected : policy.Selects object)
    (named : policy.Names item)
    (agree : ∀ other ∈ after, other.Selects object → other.Names item →
      other.image = policy.image) :
    lastImage (before ++ policy :: after) object item = some policy.image := by
  rw [lastImage_append, ← List.singleton_append, lastImage_append, lastImage_singleton,
    imageFor_of_selects selected, if_pos named]
  cases found : lastImage after object item with
  | none => rfl
  | some image =>
      obtain ⟨other, ho, selectedToo, namedToo, rfl⟩ := exists_of_lastImage found
      rw [agree other ho selectedToo namedToo]
      rfl

theorem imageFor_withImages (policy : ImagePolicy) (image : Json → Option String) (object : Json) :
    policy.imageFor (Pod.withImages image object) = policy.imageFor object := by
  funext item
  simp only [imageFor, selects_withImages]

theorem imageFor_withImage (policy : ImagePolicy) (object item : Json) (image : Option String) :
    policy.imageFor object (Container.withImage image item) = policy.imageFor object item := by
  have named : policy.Names (Container.withImage image item) ↔ policy.Names item := by
    rw [Names, Container.nameIn_withImage, Names]
  simp only [imageFor, named]

theorem rewrite_withImages (policy : ImagePolicy) {object : Json} (ordered : object.Ordered)
    (image : Json → Option String) :
    policy.rewrite (Pod.withImages image object) =
      Pod.withImages (fun item => (policy.imageFor object item).or (image item)) object := by
  rw [rewrite, imageFor_withImages, Pod.withImages_withImages ordered]
  exact fun item => policy.imageFor_withImage object item (image item)

/-- What a policy answers in a round to which the object comes changed. -/
structure Answers (policy : ImagePolicy) (request : AdmissionRequest) (object current : Json) :
    Prop where
  allowed : (policy.handle (request.withObject current)).value.allowed = true
  applies : (round request current policy).isSome
  selects : policy.Selects current ↔ policy.Selects object
  emits : (policy.handle (request.withObject current)).value.patch.isSome ↔
    policy.Selects object ∧ ∃ item ∈ Pod.containersIn current,
      policy.Names item ∧ item.get? "image" ≠ some (.text policy.image)

def Conflict (policy other : ImagePolicy) (object : Json) : Prop :=
  other.image ≠ policy.image ∧ ∃ index, policy.Targets object index ∧ other.Targets object index

section Rounds

variable {request : AdmissionRequest} {object : Json} {pod : Pod}
  (kind : request.kind = GroupVersionKind.pod) (ordered : object.Ordered)
  (read : Pod.ofJson object = .ok pod)

include kind ordered read

theorem round_eq (policy : ImagePolicy) :
    round request object policy = some (policy.rewrite object) :=
  policy.patched?_handle kind rfl ordered read

theorem rounds_eq (policies : List ImagePolicy) :
    rounds request object policies = some (Pod.withImages (lastImage policies object) object) ∧
      ∃ current, Pod.ofJson (Pod.withImages (lastImage policies object) object) = .ok current := by
  induction policies using List.reverseRecOn with
  | nil =>
      have same : Pod.withImages (lastImage [] object) object = object :=
        Pod.withImages_of_none ordered fun _ _ => rfl
      rw [same]
      exact ⟨rfl, pod, read⟩
  | append_singleton policies policy ih =>
      obtain ⟨before, current, readCurrent⟩ := ih
      have orderedCurrent := Pod.ordered_withImages ordered (lastImage policies object)
      have last : Pod.withImages (lastImage (policies ++ [policy]) object) object =
          policy.rewrite (Pod.withImages (lastImage policies object) object) := by
        rw [policy.rewrite_withImages ordered]
        congr 1
        funext item
        rw [lastImage_append, lastImage_singleton]
      rw [rounds_snoc, before, Option.bind_some, round_eq kind orderedCurrent readCurrent, last]
      exact ⟨rfl, _, ofJson_rewrite orderedCurrent readCurrent⟩

theorem answers_withImages (policies : List ImagePolicy) (policy : ImagePolicy) :
    policy.Answers request object (Pod.withImages (lastImage policies object) object) := by
  obtain ⟨_, current, readCurrent⟩ := rounds_eq kind ordered read policies
  have orderedCurrent := Pod.ordered_withImages ordered (lastImage policies object)
  have kindCurrent : (request.withObject
      (Pod.withImages (lastImage policies object) object)).kind = GroupVersionKind.pod := kind
  have selects := selects_withImages policy (lastImage policies object) object
  refine ⟨?_, ?_, selects, ?_⟩
  · rw [policy.handle_of_pod kindCurrent rfl readCurrent, AdmissionResponse.allowed_withPatch]
    rfl
  · rw [round_eq kind orderedCurrent readCurrent]
    rfl
  · rw [policy.isSome_patch_handle_iff kindCurrent rfl orderedCurrent readCurrent, selects]

theorem patch_eq_none_of_repeated {earlier later : List ImagePolicy} {policy : ImagePolicy}
    (agree : ∀ other ∈ later, ¬ policy.Conflict other object) :
    (policy.handle (request.withObject
      (Pod.withImages (lastImage (earlier ++ policy :: later) object) object))).value.patch =
        none := by
  have answers := answers_withImages kind ordered read (earlier ++ policy :: later) policy
  rw [← Option.not_isSome_iff_eq_none, answers.emits]
  rintro ⟨selected, changed, hc, named, due⟩
  rw [Pod.containersIn_withImages] at hc
  obtain ⟨item, hi, rfl⟩ := List.mem_map.mp hc
  rw [Names, Container.nameIn_withImage] at named
  obtain ⟨index, found⟩ := List.getElem?_of_mem hi
  have last : lastImage (earlier ++ policy :: later) object item = some policy.image := by
    refine lastImage_of_agree earlier selected named fun other ho selectedToo namedToo => ?_
    by_contra differ
    exact agree other ho ⟨differ, index, ⟨selected, item, found, named⟩,
      selectedToo, item, found, namedToo⟩
  obtain ⟨c, _, members, data, isRead, _⟩ :=
    exists_of_forall₂_left (forall₂_containers ordered read) hi
  rw [last, isRead.object, Container.image_withImage] at due
  exact due rfl

/-- Any number of rounds leaves each target with the image of the last policy that it is a target
of, and everything else as it was. Each policy answers as if it were the first to see the labels,
and makes a patch only if there is something left to change. -/
theorem rounds_settle (policies : List ImagePolicy) :
    (∃ result, rounds request object policies = some result ∧
      result = Pod.withImages (lastImage policies object) object ∧
      (∀ before policy after index, policies = before ++ policy :: after →
        policy.Targets object index → (∀ other ∈ after, ¬ other.Targets object index) →
          result.follow? (Pod.imagePath index).steps = some (.text policy.image)) ∧
      ∀ steps, (∀ policy ∈ policies, ∀ index, policy.Targets object index →
        Json.Apart steps (Pod.imagePath index).steps) →
          result.follow? steps = object.follow? steps) ∧
    ∀ before policy after, policies = before ++ policy :: after →
      ∃ current, rounds request object before = some current ∧
        policy.Answers request object current ∧
        ∀ earlier later, before = earlier ++ policy :: later →
          (∀ other ∈ later, ¬ policy.Conflict other object) →
            (policy.handle (request.withObject current)).value.patch = none := by
  refine ⟨⟨_, (rounds_eq kind ordered read policies).1, rfl, ?_, ?_⟩, ?_⟩
  · rintro before policy after index rfl ⟨selected, item, found, named⟩ last
    refine Pod.follow?_withImages_image ordered read found ?_
    refine lastImage_of_agree before selected named fun other ho selectedToo namedToo => ?_
    exact absurd ⟨selectedToo, item, found, namedToo⟩ (last other ho)
  · intro steps apart
    refine Pod.follow?_withImages_of_apart ordered fun index item found given => ?_
    obtain ⟨image, given⟩ := Option.isSome_iff_exists.mp given
    obtain ⟨policy, hp, selected, named, _⟩ := exists_of_lastImage given
    exact apart policy hp index ⟨selected, item, found, named⟩
  · rintro before policy after rfl
    refine ⟨_, (rounds_eq kind ordered read before).1,
      answers_withImages kind ordered read before policy, ?_⟩
    rintro earlier later rfl agree
    exact patch_eq_none_of_repeated kind ordered read agree

end Rounds

/-- Two policies want different images for the container, and a third one does not select the Pod.
The later of the two comes again and finds its image in place. -/
theorem rounds_settle_later_policy :
    let first : ImagePolicy := ⟨"app", "web", "main", "img:2"⟩
    let second : ImagePolicy := ⟨"app", "web", "main", "img:3"⟩
    let third : ImagePolicy := ⟨"app", "api", "main", "img:4"⟩
    let object (main : List (String × Json)) : Json :=
      .object [("metadata", .object [("labels", .object [("app", .text "web")])]),
        ("spec", .object [("containers", .array [.object (main ++ [("name", .text "main")]),
          .object [("image", .null), ("name", .text "side")]])])]
    let request : AdmissionRequest :=
      ⟨"u", .pod, ⟨"", "v1", "pods"⟩, none, none, none, none, none, "CREATE", [],
        some (object []), none, none⟩
    rounds request (object []) [first, second, third, second] =
        some (object [("image", .text "img:3")]) ∧
      ∃ current, rounds request (object []) [first, second, third] = some current ∧
        (second.handle (request.withObject current)).value.patch = none := by
  intro first second third object request
  have ordered : (object []).Ordered := by decide +kernel
  obtain ⟨pod, read⟩ : ∃ pod, Pod.ofJson (object []) = .ok pod := ⟨_, rfl⟩
  obtain ⟨⟨result, run, same, -⟩, each⟩ :=
    @rounds_settle request (object []) pod rfl ordered read [first, second, third, second]
  obtain ⟨current, before, -, repeated⟩ := each [first, second, third] second [] rfl
  have last : Pod.withImages (lastImage [first, second, third, second] (object [])) (object []) =
      object [("image", .text "img:3")] := rfl
  refine ⟨by rw [run, same, last], current, before, repeated [first] [third] rfl ?_⟩
  rintro other ho ⟨-, index, -, selected, -⟩
  rw [List.mem_singleton.mp ho] at selected
  exact absurd selected (by decide)

end ImagePolicy

end PodWebhook
