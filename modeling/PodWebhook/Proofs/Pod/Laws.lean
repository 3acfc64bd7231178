import PodWebhook.Proofs.Pod.Written

/-!
The image policy on Pods, whether they have been read from somewhere or not. A policy does to each
container the same whatever stands around it, so its laws are those of one container: it sets one
image, twice is once, the last one of two policies for one container prevails, and policies that do
not meet commute.
-/

namespace PodWebhook

namespace Pod

def mapContainers (change : Container → Container) (pod : Pod) : Pod :=
  { pod with
    spec := pod.spec.map fun spec => { spec with containers := spec.containers.map change } }

theorem containers_mapContainers (change : Container → Container) (pod : Pod) :
    (pod.mapContainers change).containers = pod.containers.map change := by
  simp only [containers, mapContainers]
  cases pod.spec <;> rfl

theorem mapContainers_mapContainers (f g : Container → Container) (pod : Pod) :
    (pod.mapContainers g).mapContainers f = pod.mapContainers fun c => f (g c) := by
  obtain ⟨labels, metadata, spec, others⟩ := pod
  cases spec with
  | none => rfl
  | some spec => simp [mapContainers, Function.comp_def]

theorem mapContainers_eq_self_iff {change : Container → Container} {pod : Pod} :
    pod.mapContainers change = pod ↔ ∀ c ∈ pod.containers, change c = c := by
  obtain ⟨labels, metadata, spec, others⟩ := pod
  cases spec with
  | none => simp [mapContainers, containers]
  | some spec =>
      obtain ⟨items, rest⟩ := spec
      simp only [mapContainers, containers, Option.map_some, mk.injEq, Option.some.injEq,
        PodSpec.mk.injEq, and_true, true_and]
      have pointwise := @List.map_inj_left _ _ items change id
      rwa [List.map_id] at pointwise

end Pod

namespace ImagePolicy

/-! One container -/

theorem enforce_eq (policy : ImagePolicy) (c : Container) :
    policy.enforce c =
      if c.name = policy.containerName then { c with image := some policy.image } else c := by
  obtain ⟨name, image, others⟩ := c
  by_cases named : name = policy.containerName <;> by_cases same : image = some policy.image <;>
    simp [enforce, changes, named, same]

theorem enforce_of_name_ne {policy : ImagePolicy} {c : Container}
    (h : c.name ≠ policy.containerName) : policy.enforce c = c := by
  rw [enforce_eq, if_neg h]

theorem enforce_eq_self_iff {policy : ImagePolicy} {c : Container} :
    policy.enforce c = c ↔ (c.name = policy.containerName → c.image = some policy.image) := by
  obtain ⟨name, image, others⟩ := c
  rw [enforce_eq]
  split
  · next named => simp_all [eq_comm]
  · next other => simp [show name ≠ policy.containerName from other]

theorem enforce_enforce {p q : ImagePolicy} (same : p.containerName = q.containerName)
    (c : Container) : q.enforce (p.enforce c) = q.enforce c := by
  rw [enforce_eq q, name_enforce, enforce_eq q, enforce_eq p, same]
  split <;> rfl

theorem enforce_comm {p q : ImagePolicy}
    (apart : p.containerName ≠ q.containerName ∨ p.image = q.image) (c : Container) :
    p.enforce (q.enforce c) = q.enforce (p.enforce c) := by
  by_cases first : c.name = p.containerName
  · by_cases second : c.name = q.containerName
    · have names : p.containerName = q.containerName := first.symm.trans second
      have images : p.image = q.image := apart.resolve_left fun differ => differ names
      rw [enforce_enforce names.symm, enforce_enforce names, enforce_eq, enforce_eq, names, images]
    · have after : (p.enforce c).name ≠ q.containerName := by rwa [name_enforce]
      rw [enforce_of_name_ne second, enforce_of_name_ne after]
  · have after : (q.enforce c).name ≠ p.containerName := by rwa [name_enforce]
    rw [enforce_of_name_ne first, enforce_of_name_ne after]

/-! All containers -/

theorem apply_of_selects {policy : ImagePolicy} {pod : Pod} (h : policy.selects pod = true) :
    policy.apply pod = pod.mapContainers policy.enforce := by
  rw [apply, if_pos h, Pod.mapContainers]

theorem apply_of_not_selects {policy : ImagePolicy} {pod : Pod} (h : ¬ policy.selects pod = true) :
    policy.apply pod = pod := by
  rw [apply, if_neg h]

/-- Two Pods are the same but for the images of the containers that a policy names in a Pod that it
selects. -/
structure Reimages (policy : ImagePolicy) (before after : Pod) : Prop where
  labels : after.labels = before.labels
  metadata : after.metadata = before.metadata
  others : after.others = before.others
  spec : after.spec.map PodSpec.others = before.spec.map PodSpec.others
  containers : List.Forall₂ (fun old new => new.name = old.name ∧ new.others = old.others ∧
    new.image = if policy.selects before = true ∧ old.name = policy.containerName then
      some policy.image else old.image) before.containers after.containers

theorem reimages_apply (policy : ImagePolicy) (pod : Pod) :
    policy.Reimages pod (policy.apply pod) := by
  by_cases selected : policy.selects pod = true
  · rw [apply_of_selects selected]
    refine ⟨rfl, rfl, rfl, ?_, ?_⟩
    · rw [Pod.mapContainers, Option.map_map]
      rfl
    · rw [Pod.containers_mapContainers, List.forall₂_map_right_iff, List.forall₂_same]
      intro c _
      by_cases named : c.name = policy.containerName <;> simp [enforce_eq, selected, named]
  · rw [apply_of_not_selects selected]
    refine ⟨rfl, rfl, rfl, rfl, List.forall₂_same.mpr fun c _ => ?_⟩
    simp [selected]

theorem Reimages.names {policy : ImagePolicy} {before after : Pod}
    (h : policy.Reimages before after) :
    after.containers.map Container.name = before.containers.map Container.name := by
  have same : List.Forall₂ (· = ·) (before.containers.map Container.name)
      (after.containers.map Container.name) := by
    rw [List.forall₂_map_left_iff, List.forall₂_map_right_iff]
    exact h.containers.imp fun _ _ each => each.1.symm
  rw [List.forall₂_eq_eq_eq] at same
  exact same.symm

theorem apply_override {p q : ImagePolicy} {pod : Pod} (same : p.containerName = q.containerName)
    (selected : q.selects pod = true) : q.apply (p.apply pod) = q.apply pod := by
  by_cases first : p.selects pod = true
  · rw [apply_of_selects ((selects_apply q p pod).trans selected), apply_of_selects first,
      apply_of_selects selected, Pod.mapContainers_mapContainers]
    exact congrArg (Pod.mapContainers · pod) (funext (enforce_enforce same))
  · rw [apply_of_not_selects first]

theorem apply_comm {p q : ImagePolicy} {pod : Pod}
    (apart : p.containerName ≠ q.containerName ∨ p.image = q.image ∨
      ¬ (p.selects pod = true ∧ q.selects pod = true)) :
    p.apply (q.apply pod) = q.apply (p.apply pod) := by
  by_cases first : p.selects pod = true <;> by_cases second : q.selects pod = true
  · have meet : p.containerName ≠ q.containerName ∨ p.image = q.image :=
      apart.imp_right fun h => h.resolve_right fun both => both ⟨first, second⟩
    rw [apply_of_selects ((selects_apply p q pod).trans first),
      apply_of_selects ((selects_apply q p pod).trans second), apply_of_selects first,
      apply_of_selects second, Pod.mapContainers_mapContainers, Pod.mapContainers_mapContainers]
    exact congrArg (Pod.mapContainers · pod) (funext (enforce_comm meet))
  · have after : ¬ q.selects (p.apply pod) = true := by rwa [selects_apply]
    rw [apply_of_not_selects second, apply_of_not_selects after]
  · have after : ¬ p.selects (q.apply pod) = true := by rwa [selects_apply]
    rw [apply_of_not_selects first, apply_of_not_selects after]
  · rw [apply_of_not_selects first, apply_of_not_selects second, apply_of_not_selects first]

theorem apply_eq_self_iff {policy : ImagePolicy} {pod : Pod} :
    policy.apply pod = pod ↔ ¬ policy.selects pod = true ∨
      ∀ c ∈ pod.containers, c.name = policy.containerName → c.image = some policy.image := by
  by_cases selected : policy.selects pod = true
  · simp only [apply_of_selects selected, Pod.mapContainers_eq_self_iff, enforce_eq_self_iff,
      selected, not_true_eq_false, false_or]
  · simp [apply_of_not_selects selected, selected]

/-- What policies do to a Pod, alone and one after the other. -/
theorem run_laws (p q : ImagePolicy) (pod : Pod) :
    p.Reimages pod (p.run pod).value ∧
      (p.run pod).value.containers.map Container.name = pod.containers.map Container.name ∧
      q.selects (p.run pod).value = q.selects pod ∧
      (p.run (p.run pod).value).value = (p.run pod).value ∧
      (p.containerName = q.containerName → q.selects pod = true →
        (q.run (p.run pod).value).value = (q.run pod).value) ∧
      (p.containerName ≠ q.containerName ∨ p.image = q.image ∨
          ¬ (p.selects pod = true ∧ q.selects pod = true) →
        (p.run (q.run pod).value).value = (q.run (p.run pod).value).value) ∧
      ((p.run pod).value = pod ↔ ¬ p.selects pod = true ∨
        ∀ c ∈ pod.containers, c.name = p.containerName → c.image = some p.image) :=
  ⟨p.reimages_apply pod, (p.reimages_apply pod).names, selects_apply q p pod, p.apply_apply pod,
    apply_override, apply_comm, apply_eq_self_iff⟩

theorem run_laws_two_containers :
    let p : ImagePolicy := ⟨"app", "web", "main", "img:2"⟩
    let q : ImagePolicy := ⟨"tier", "back", "main", "img:3"⟩
    let side : ImagePolicy := ⟨"app", "web", "side", "log:1"⟩
    let pod : Pod := ⟨some [("app", "web"), ("tier", "back")], [],
      some ⟨[⟨"main", none, []⟩, ⟨"side", some "log:0", []⟩], []⟩, []⟩
    (q.run (p.run pod).value).value = (q.run pod).value ∧
      (p.run (side.run pod).value).value = (side.run (p.run pod).value).value ∧
      (p.run pod).value ≠ pod := by
  intro p q side pod
  obtain ⟨-, -, -, -, override, -, fixed⟩ := run_laws p q pod
  obtain ⟨-, -, -, -, -, commute, -⟩ := run_laws p side pod
  refine ⟨override rfl (by decide +kernel), commute (.inl (by decide +kernel)), fun same => ?_⟩
  rcases fixed.mp same with unselected | already
  · exact unselected (by decide +kernel)
  · exact absurd (already ⟨"main", none, []⟩ List.mem_cons_self rfl) (by decide)

end ImagePolicy

end PodWebhook
