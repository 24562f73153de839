import SessionWatch.Proofs.Accesses
import SessionWatch.Proofs.Facts
import SessionWatch.Proofs.Relay

/-!
What callbacks keep to. A callback of an informer takes steps of that informer alone, does not go by
the stamps of its events, and sets or looks up the time of a node once at most.
-/

namespace SessionWatch

open Session Cluster

namespace Plan

variable {α β : Type} {r : Resource}

/-- A plan of steps of an informer, so many of them crucial at most, that goes by no stamp. -/
inductive Keeps (r : Resource) : ℕ → Plan α → Prop
  | done {k : ℕ} (a : α) : Keeps r k (.done a)
  | light {k : ℕ} {s : Step} {next : s.Answer → Plan α} : s.Light r →
      (∀ x y, s.Same (some x) (some y) → next x = next y) → (∀ x, Keeps r k (next x)) →
      Keeps r k (.step s next)
  | crucial {k : ℕ} {s : Step} {next : s.Answer → Plan α} : s.Crucial r →
      (∀ x, Keeps r k (next x)) → Keeps r (k + 1) (.step s next)

namespace Keeps

variable {j k : ℕ} {p : Plan α}

theorem mono (h : p.Keeps r j) (hjk : j ≤ k) : p.Keeps r k := by
  induction h generalizing k with
  | done a => exact .done a
  | light hs hsame _ ih => exact .light hs hsame fun x => ih x hjk
  | crucial hs _ ih =>
    cases k with
    | zero => omega
    | succ k => exact .crucial hs fun x => ih x (by omega)

theorem bind {f : α → Plan β} (h : p.Keeps r j) (hf : ∀ a, (f a).Keeps r k) :
    (p.bind f).Keeps r (j + k) := by
  induction h with
  | @done j a => exact (hf a).mono (by omega)
  | light hs hsame _ ih => exact .light hs (fun x y hxy => by rw [hsame x y hxy]) ih
  | @crucial j s next hs _ ih =>
    have hk : j + 1 + k = (j + k) + 1 := by omega
    rw [hk]
    exact .crucial hs ih

theorem bind_light {f : α → Plan β} (h : p.Keeps r 0) (hf : ∀ a, (f a).Keeps r k) :
    (p.bind f).Keeps r k := by
  simpa using h.bind hf

theorem head {s : Step} {next : s.Answer → Plan α} (h : (Plan.step s next).Keeps r k) :
    (s.Light r ∨ s.Crucial r) ∧ (∀ x y, s.Same (some x) (some y) → next x = next y) ∧
      ∀ x, (next x).Keeps r k := by
  cases h with
  | light hs hsame hnext => exact ⟨.inl hs, hsame, hnext⟩
  | crucial hs hnext =>
    have hsame : ∀ x y, s.Same (some x) (some y) → next x = next y := by
      cases hs with
      | consult n => rintro x y ⟨⟩; rfl
      | remember n t => rintro x y ⟨⟩; rfl
    exact ⟨.inr hs, hsame, fun x => (hnext x).mono (by omega)⟩

theorem light_or_last {s : Step} {next : s.Answer → Plan α} (h : (Plan.step s next).Keeps r 1) :
    s.Light r ∨ ∀ x, (next x).Keeps r 0 := by
  cases h with
  | light hs _ _ => exact .inl hs
  | crucial _ hnext => exact .inr hnext

theorem light_of_zero {s : Step} {next : s.Answer → Plan α} (h : (Plan.step s next).Keeps r 0) :
    s.Light r := by
  cases h with
  | light hs _ _ => exact hs

theorem once {s : Step} (hs : s.Light r) (hstamp : s ≠ .stamp) : (Plan.once s).Keeps r 0 := by
  refine .light hs (fun x y hxy => ?_) fun x => .done x
  cases s with
  | stamp => exact absurd rfl hstamp
  | _ => rw [Option.some.inj hxy]

theorem once_crucial {s : Step} (hs : s.Crucial r) : (Plan.once s).Keeps r 1 :=
  .crucial hs fun x => .done x

theorem afterStamps {n : ℕ} (h : p.Keeps r k) : (p.afterStamps n).Keeps r k := by
  induction n with
  | zero => exact h
  | succ n ih => exact .light (.stamp r) (fun _ _ _ => rfl) fun _ => ih

end Keeps

end Plan

namespace Storage

theorem fanOut_keeps {r : Resource} (n : ℕ) {q : Request} (hq : ∀ i, (Step.exchange i q).Light r) :
    (fanOut n q).Keeps r 0 := by
  have hask : ∀ t is, (askEach q t is).Keeps r 0 := by
    intro t is
    induction is generalizing t with
    | nil => exact .done t
    | cons i is ih => exact (Plan.Keeps.once (hq i) (by simp)).bind_light fun a => ih _
  exact (hask _ _).bind_light fun t => .done _

end Storage

namespace Session

theorem push_keeps (n : ℕ) (stream : String) (kind : TaskKind) (info : String) :
    (push n stream kind info).Keeps .pods 0 := by
  refine (Storage.fanOut_keeps n fun _ => .append rfl).bind_light fun a => ?_
  cases a with
  | error r => exact .done _
  | ok t =>
    refine (Storage.fanOut_keeps n fun _ => .append rfl).bind_light fun b => ?_
    cases b with
    | error r => exact .done _
    | ok id => exact .done _

theorem timeUnder_keeps {r : Resource} {k : ℕ} {key : String}
    (h : (Plan.consult key).Keeps r k) : (timeUnder key).Keeps r k := by
  refine h.bind (k := 0) fun a => ?_
  cases a with
  | none => exact .done _
  | some t => exact .done _

end Session

def Fact.resource : Fact → Resource
  | .node .. | .nodeWatchFailed _ => .nodes
  | .pod .. | .podWatchFailed _ => .pods

/-- How often a fact has the time of a node set or looked up. -/
def Fact.nodeTimes : Fact → ℕ
  | .node .recordProvision _ | .pod .ready _ => 1
  | _ => 0

namespace Workplace

variable (w : Workplace)

theorem note_keeps (r : Resource) (n : Note) : (Plan.note n).Keeps r 0 :=
  .once (.note r n) (by simp)

theorem recordProvision_keeps (node : Node) : (w.recordProvision node).Keeps .nodes 1 := by
  refine (Storage.fanOut_keeps w.backends fun _ => .index rfl).bind_light fun a => ?_
  cases a with
  | error r => exact .done _
  | ok t =>
    refine (note_keeps _ _).bind_light fun _ => ?_
    exact (Plan.Keeps.once_crucial (.remember node.name t)).bind (k := 0) fun _ => .done _

theorem updateLabels_keeps (node : Node) : (w.labelsCache.update w.backends node).Keeps .nodes 0 := by
  unfold LabelsCache.update
  split
  · exact .done _
  · refine (Storage.fanOut_keeps w.backends fun _ => .index rfl).bind_light fun a => ?_
    cases a with
    | error r => exact .done _
    | ok n => exact .done _

theorem recordSchedule_keeps (pod : Pod) : (w.recordSchedule pod).Keeps .pods 0 := by
  refine (Storage.fanOut_keeps w.backends fun _ => .append rfl).bind_light fun a => ?_
  cases a with
  | error r => exact .done _
  | ok t =>
    refine (note_keeps _ _).bind_light fun _ => ?_
    exact (Plan.Keeps.once (.remember pod.sessionId t) (by simp)).bind_light fun _ => .done _

theorem deleteSession_keeps (pod : Pod) : (w.deleteSession pod).Keeps .pods 0 := by
  have hdelete : (setDeletable w.backends w.streams ⟨pod.sessionId⟩).Keeps .pods 0 := by
    refine (push_keeps ..).bind_light fun a => ?_
    cases a with
    | error r => exact .done _
    | ok id =>
      exact (Plan.Keeps.once (.forget pod.sessionId) (by simp)).bind_light fun _ => .done _
  refine (note_keeps _ _).bind_light fun _ => hdelete.bind_light fun a => ?_
  cases a with
  | error r => exact .done _
  | ok id => exact .done _

theorem enqueueSession_keeps (pod : Pod) : (w.enqueueSession pod).Keeps .pods 1 := by
  have hnode : (getNode pod.nodeName).Keeps .pods 1 :=
    timeUnder_keeps (.once_crucial (.consult pod.nodeName))
  have hpod : (getPod pod.sessionId).Keeps .pods 0 :=
    timeUnder_keeps (.once (.consult pod.sessionId) (by simp))
  refine (note_keeps _ _).bind_light fun _ => hnode.bind (k := 0) fun a => ?_
  cases a with
  | error r => exact .done _
  | ok tn =>
    refine (note_keeps _ _).bind_light fun _ => hpod.bind_light fun b => ?_
    cases b with
    | error r => exact .done _
    | ok tp =>
      refine (note_keeps _ _).bind_light fun _ => (push_keeps ..).bind_light fun c => ?_
      cases c with
      | error r => exact .done _
      | ok id => exact .done _

theorem attend_keeps (f : Fact) : (w.attend f).Keeps f.resource f.nodeTimes := by
  cases f with
  | node change node =>
    cases change with
    | recordProvision => exact w.recordProvision_keeps node
    | updateLabels => exact w.updateLabels_keeps node
    | _ => exact .done _
  | pod change pod =>
    cases change with
    | recordSchedule => exact w.recordSchedule_keeps pod
    | delete => exact w.deleteSession_keeps pod
    | ready => exact w.enqueueSession_keeps pod
    | add => exact .done _
  | nodeWatchFailed message => exact .done _
  | podWatchFailed message => exact .done _

theorem relay_keeps {r : Resource} {fs : List Fact} (hfs : ∀ f ∈ fs, f.resource = r) :
    (w.relay fs).Keeps r (fs.map (·.nodeTimes)).sum := by
  induction fs with
  | nil => exact .done _
  | cons f fs ih =>
    have hf := w.attend_keeps f
    rw [hfs f (by simp)] at hf
    refine hf.bind fun a => ?_
    cases a with
    | ok _ => exact ih fun g hg => hfs g (by simp [hg])
    | error e => exact .done _

theorem relayEach_keeps {r : Resource} {fss : List (List Fact)}
    (hfss : ∀ f ∈ fss.flatten, f.resource = r) :
    (w.relayEach fss).Keeps r (fss.flatten.map (·.nodeTimes)).sum := by
  induction fss with
  | nil => exact .done _
  | cons fs fss ih =>
    rw [List.flatten_cons, List.map_append, List.sum_append]
    rw [List.flatten_cons] at hfss
    have hfs : ∀ f ∈ fs, f.resource = r := fun f hf => hfss f (List.mem_append_left _ hf)
    have hrest := ih fun f hf => hfss f (List.mem_append_right _ hf)
    exact ((w.relay_keeps hfs).bind fun _ => hrest).afterStamps

end Workplace

theorem Cluster.PodWatch.Observed.nodeTimes_facts_le (o : Observed) :
    (o.facts.map (·.nodeTimes)).sum ≤ 1 := by
  unfold facts
  split
  · simp [Fact.nodeTimes]
  · simp [Fact.nodeTimes]
  · simp [Fact.nodeTimes]
  · split <;> simp [Fact.nodeTimes]
  · simp only [runningFacts]
    cases o.isReady <;> cases o.deleting <;> cases o.crashed <;> simp [isDeletion, Fact.nodeTimes]
  · simp

theorem Cluster.PodWatch.nodeTimes_facts_le (schema : Schema) (rules : Rules) (c : Callback) :
    ((facts schema rules c).map (·.nodeTimes)).sum ≤ 1 := by
  cases c with
  | added o =>
    simp only [facts]
    split
    · split <;> simp [Fact.nodeTimes]
    · simp
  | updated old o =>
    simp only [facts]
    split
    · split
      · exact Observed.nodeTimes_facts_le _
      · simp
    · simp
  | deleted o => simp [facts]
  | failed message => simp [facts, Fact.nodeTimes]

theorem Cluster.NodeWatch.nodeTimes_batch_le {schema : Schema} {observee : Labels} {c : Callback}
    {b : Batch} (h : batch? schema observee c = some b) : (b.facts.map (·.nodeTimes)).sum ≤ 1 := by
  cases c with
  | added o =>
    obtain ⟨n, -, rfl⟩ := Option.map_eq_some_iff.1 h
    simp [addition, Fact.nodeTimes]
  | updated old o =>
    obtain ⟨n, -, rfl⟩ := Option.map_eq_some_iff.1 h
    unfold update
    split <;> simp [Fact.nodeTimes]
  | deleted o =>
    obtain ⟨n, -, rfl⟩ := Option.map_eq_some_iff.1 h
    simp [deletion, Fact.nodeTimes]
  | failed message => cases h

namespace Pipeline

variable {p : Pipeline}

theorem resource_of_mem_facts {r : Resource} {c : Callback} {f : Fact} (h : f ∈ p.facts r c) :
    f.resource = r := by
  cases r with
  | pods =>
    rcases PodWatch.of_mem_facts (mem_facts_pods.1 h) with
      ⟨message, rfl⟩ | ⟨obj, o, change, pod, -, -, rfl, -⟩ <;> rfl
  | nodes =>
    rcases of_mem_facts_nodes h with ⟨message, -, rfl⟩ | ⟨b, hb, hf⟩
    · rfl
    · obtain ⟨change, node, rfl⟩ := NodeWatch.node_of_mem_batch hb hf
      rfl

theorem nodeTimes_facts_le (r : Resource) (c : Callback) :
    ((p.facts r c).map (·.nodeTimes)).sum ≤ 1 := by
  cases r with
  | pods =>
    rw [facts_pods]
    exact PodWatch.nodeTimes_facts_le p.schema p.rules c
  | nodes =>
    rcases p.facts_nodes_cases c with ⟨message, -, hfacts⟩ | ⟨b, hb, hfacts⟩ | hfacts
    · simp [hfacts, Fact.nodeTimes]
    · rw [hfacts]
      exact NodeWatch.nodeTimes_batch_le hb
    · simp [hfacts]

/-- A callback to a wired pipeline keeps to the steps of its informer, and sets or looks up the time
of a node once at most. -/
theorem on_keeps (hp : p.subscriptions = Handler.wired) (r : Resource) (c : Callback) :
    (p.on r c).Keeps r 1 := by
  rw [on_eq_relayEach hp]
  refine (p.workplace.relayEach_keeps fun f hf => ?_).mono ?_
  · rw [flatten_publications] at hf
    exact resource_of_mem_facts hf
  · rw [flatten_publications]
    exact nodeTimes_facts_le r c

end Pipeline

end SessionWatch
