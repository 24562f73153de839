import SessionWatch.Proofs.Course

/-!
Which facts a callback gives. Those about pods come from callbacks about pods and tell of the
session that the object shows; those about nodes come from callbacks about nodes, and only an
addition has a node recorded.
-/

namespace SessionWatch

open Cluster

namespace Cluster

/-- The object that a callback shows, of an update the new one. -/
def Callback.object? : Callback → Option Object
  | .added o => some o
  | .updated _ o => some o
  | .deleted o => some o
  | .failed _ => none

namespace PodWatch

theorem of_observed? {schema : Schema} {rules : Rules} {obj : Object} {o : Observed}
    (h : observed? schema rules obj = some o) :
    o.pod.sessionId = (obj.labels.get? rules.sessionLabel).getD "" ∧
      o.pod.nodeName = textOf (contentField obj "spec") "nodeName" ∧
      o.pod.ip = textOf (contentField obj "status") "podIP" ∧
      o.managed = (obj.labels.get? rules.managedLabel != some "false") ∧
      o.phase = textOf (contentField obj "status") "phase" ∧
      o.conditions = (listOf (contentField obj "status") "conditions").map (fun c =>
        (textOf (some c) "type", textOf (some c) "status")) ∧
      o.deleting = obj.metadata.deleting := by
  unfold observed? read at h
  split at h
  · cases hname : obj.properName with
    | error r => simp [hname, bind, Except.bind, Except.toOption] at h
    | ok name =>
      simp only [hname, bind, Except.bind, pure, Except.pure, Except.toOption,
        Option.some.injEq] at h
      subst h
      exact ⟨rfl, rfl, rfl, rfl, rfl, rfl, rfl⟩
  · simp [Except.toOption] at h

theorem Observed.of_mem_runningFacts {o : Observed} {f : Fact} (h : f ∈ o.runningFacts) :
    f = .pod .ready o.pod ∨ f = .pod .delete o.pod.identity := by
  simp only [runningFacts] at h
  cases hready : o.isReady <;> cases hdel : o.deleting <;> cases hcr : o.crashed <;>
    simp_all [isDeletion]

theorem Observed.of_mem_facts {o : Observed} {f : Fact} (h : f ∈ o.facts) :
    f = .pod .ready o.pod ∨ f = .pod .delete o.pod.identity ∨
      f = .pod .recordSchedule o.pod.identity := by
  unfold facts at h
  split at h
  · exact .inr (.inl (by simpa using h))
  · exact .inr (.inl (by simpa using h))
  · exact .inr (.inl (by simpa using h))
  · split at h
    · exact .inr (.inr (by simpa using h))
    · simp at h
  · rcases of_mem_runningFacts h with hf | hf
    · exact .inl hf
    · exact .inr (.inl hf)
  · simp at h

/-- A fact from a callback about a pod tells of the session that its object shows, and all but
additions need the pod to be in a session. -/
theorem of_mem_facts {schema : Schema} {rules : Rules} {c : Callback} {f : Fact}
    (h : f ∈ facts schema rules c) :
    (∃ message, f = .podWatchFailed message) ∨
      ∃ obj o change pod, c.object? = some obj ∧ observed? schema rules obj = some o ∧
        f = .pod change pod ∧ pod.sessionId = o.pod.sessionId ∧
        (change = .add ∨ o.inSession = true) := by
  cases c with
  | added obj =>
    simp only [facts] at h
    split at h
    · next o ho =>
      split at h
      · simp at h
      · obtain rfl : f = .pod .add o.pod.identity := by simpa using h
        exact .inr ⟨obj, o, .add, _, rfl, ho, rfl, rfl, .inl rfl⟩
    · simp at h
  | updated old obj =>
    simp only [facts] at h
    split at h
    · next o ho =>
      split at h
      · next hin =>
        rcases Observed.of_mem_facts h with rfl | rfl | rfl <;>
          exact .inr ⟨obj, o, _, _, rfl, ho, rfl, rfl, .inr hin⟩
      · simp at h
    · simp at h
  | deleted obj => simp [facts] at h
  | failed message => exact .inl ⟨message, by simpa [facts] using h⟩

end PodWatch

namespace NodeWatch

/-- An object is an observed node: it can be read as a node, and it has this name and every pair of
labels that is looked for. -/
structure Qualifies (schema : Schema) (observee : Labels) (o : Object) (name : String) : Prop where
  parses : schema.node o = true
  named : o.metadata.name = some name
  labelled : ∀ k v, observee.get? k = some v → o.labels.get? k = some v

theorem observed?_eq_some_iff {schema : Schema} {observee : Labels} {o : Object} {n : Node} :
    observed? schema observee o = some n ↔
      ∃ name, Qualifies schema observee o name ∧ n = ⟨name, "", o.labels⟩ := by
  unfold observed? node Object.properName
  constructor
  · intro h
    by_cases hparses : schema.node o = true
    · rw [if_pos hparses] at h
      cases hname : o.metadata.name with
      | none =>
        rw [hname] at h
        cases h
      | some name =>
        rw [hname] at h
        obtain ⟨hobserved, hn⟩ := Option.ite_none_right_eq_some.1 h
        exact ⟨name, ⟨hparses, hname, isObserved_iff.1 hobserved⟩, (Option.some.inj hn).symm⟩
    · rw [if_neg hparses] at h
      cases h
  · rintro ⟨name, h, rfl⟩
    rw [if_pos h.parses, h.named]
    exact if_pos (isObserved_iff.2 h.labelled)

theorem node_of_mem_batch {schema : Schema} {observee : Labels} {c : Callback} {b : Batch}
    {f : Fact} (hb : batch? schema observee c = some b) (hf : f ∈ b.facts) :
    ∃ change node, f = .node change node := by
  cases c with
  | added o =>
    obtain ⟨n, -, rfl⟩ := Option.map_eq_some_iff.1 hb
    simp only [addition, List.mem_cons, List.not_mem_nil, or_false] at hf
    rcases hf with rfl | rfl | rfl <;> exact ⟨_, _, rfl⟩
  | updated old o =>
    obtain ⟨n, -, rfl⟩ := Option.map_eq_some_iff.1 hb
    unfold update at hf
    split at hf
    · simp only [List.mem_cons, List.not_mem_nil, or_false] at hf
      rcases hf with rfl | rfl <;> exact ⟨_, _, rfl⟩
    · simp only [List.mem_cons, List.not_mem_nil, or_false] at hf
      exact ⟨_, _, hf⟩
  | deleted o =>
    obtain ⟨n, -, rfl⟩ := Option.map_eq_some_iff.1 hb
    simp only [deletion, List.mem_cons, List.not_mem_nil, or_false] at hf
    exact ⟨_, _, hf⟩
  | failed message => cases hb

theorem added_of_record_mem_batch {schema : Schema} {observee : Labels} {c : Callback} {b : Batch}
    {node : Node} (hb : batch? schema observee c = some b)
    (hf : .node .recordProvision node ∈ b.facts) :
    ∃ o n, c = .added o ∧ observed? schema observee o = some n ∧ node.name = n.name := by
  cases c with
  | added o =>
    obtain ⟨n, hn, rfl⟩ := Option.map_eq_some_iff.1 hb
    obtain rfl : node = { n with driverVersion := (driverVersion n.labels).toOption.getD "" } := by
      simpa [addition] using hf
    exact ⟨o, n, rfl, hn, rfl⟩
  | updated old o =>
    obtain ⟨n, -, rfl⟩ := Option.map_eq_some_iff.1 hb
    unfold update at hf
    split at hf <;> simp at hf
  | deleted o =>
    obtain ⟨n, -, rfl⟩ := Option.map_eq_some_iff.1 hb
    simp [deletion] at hf
  | failed message => cases hb

end NodeWatch

end Cluster

namespace Pipeline

variable {p : Pipeline} {c : Callback} {f : Fact}

theorem facts_pods (c : Callback) : p.facts .pods c = PodWatch.facts p.schema p.rules c := by
  show ((PodWatch.facts p.schema p.rules c).map Publication.lone).flatMap (·.facts) = _
  induction PodWatch.facts p.schema p.rules c with
  | nil => rfl
  | cons f fs ih => rw [List.map_cons, List.flatMap_cons, ih]; rfl

theorem mem_facts_pods : f ∈ p.facts .pods c ↔ f ∈ PodWatch.facts p.schema p.rules c := by
  rw [facts_pods]

theorem facts_nodes_cases (p : Pipeline) (c : Callback) :
    (∃ message, c = .failed message ∧ p.facts .nodes c = [.nodeWatchFailed message]) ∨
      (∃ b, NodeWatch.batch? p.schema p.observee c = some b ∧ p.facts .nodes c = b.facts) ∨
        p.facts .nodes c = [] := by
  have hbatch : p.facts .nodes c =
      ((NodeWatch.batch? p.schema p.observee c).map Publication.batch).toList.flatMap (·.facts) →
      (∃ b, NodeWatch.batch? p.schema p.observee c = some b ∧ p.facts .nodes c = b.facts) ∨
        p.facts .nodes c = [] := by
    intro h
    cases hb : NodeWatch.batch? p.schema p.observee c with
    | none => exact .inr (by simpa [hb] using h)
    | some b => exact .inl ⟨b, rfl, by simpa [hb, Publication.facts] using h⟩
  cases c with
  | failed message => exact .inl ⟨message, rfl, rfl⟩
  | added o => exact .inr (hbatch rfl)
  | updated old o => exact .inr (hbatch rfl)
  | deleted o => exact .inr (hbatch rfl)

theorem of_mem_facts_nodes (h : f ∈ p.facts .nodes c) :
    (∃ message, c = .failed message ∧ f = .nodeWatchFailed message) ∨
      ∃ b, NodeWatch.batch? p.schema p.observee c = some b ∧ f ∈ b.facts := by
  rcases p.facts_nodes_cases c with ⟨message, hc, hfacts⟩ | ⟨b, hb, hfacts⟩ | hfacts
  · rw [hfacts] at h
    exact .inl ⟨message, hc, List.mem_singleton.1 h⟩
  · exact .inr ⟨b, hb, hfacts ▸ h⟩
  · simp [hfacts] at h

theorem pod_of_mem_facts {r : Resource} {change : PodChange} {pod : Pod}
    (h : .pod change pod ∈ p.facts r c) :
    r = .pods ∧ .pod change pod ∈ PodWatch.facts p.schema p.rules c := by
  cases r with
  | pods => exact ⟨rfl, mem_facts_pods.1 h⟩
  | nodes =>
    rcases of_mem_facts_nodes h with ⟨message, -, hf⟩ | ⟨b, hb, hf⟩
    · cases hf
    · obtain ⟨change', node, hn⟩ := NodeWatch.node_of_mem_batch hb hf
      cases hn

theorem node_of_mem_facts {r : Resource} {change : NodeChange} {node : Node}
    (h : .node change node ∈ p.facts r c) :
    r = .nodes ∧
      ∃ b, NodeWatch.batch? p.schema p.observee c = some b ∧ .node change node ∈ b.facts := by
  cases r with
  | pods =>
    rcases PodWatch.of_mem_facts (mem_facts_pods.1 h) with ⟨message, hf⟩ | ⟨_, _, _, _, -, -, hf, -⟩
      <;> cases hf
  | nodes =>
    rcases of_mem_facts_nodes h with ⟨message, -, hf⟩ | hbatch
    · cases hf
    · exact ⟨rfl, hbatch⟩

end Pipeline

end SessionWatch
