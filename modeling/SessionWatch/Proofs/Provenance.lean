import SessionWatch.Application
import SessionWatch.Proofs.Facts
import SessionWatch.Proofs.Times

/-!
Where the entries for ready sessions come from. Each was appended in the handling of one event,
and carries what the pod of that event showed along with the times recorded last for its node and
its session.
-/

namespace SessionWatch

open Session Cluster

/-- An entry at this position of a stream is appended in the handling. -/
def Handling.Appends (h : Handling) (i : ℕ) (key : String) (k : ℕ) : Prop :=
  (h.before.entries i key).length ≤ k ∧ k < (h.after.entries i key).length

namespace Course

variable {p : Pipeline} {w v : World} {hs : List Handling}

theorem entries_append (hp : p.subscriptions = Handler.wired) (hc : Course p w hs v) (i : ℕ)
    (key : String) : ∃ new, v.entries i key = w.entries i key ++ new := by
  induction hc with
  | quiet hq => exact ⟨[], by rw [hq.entries_eq, List.append_nil]⟩
  | handled hq hg _ ih =>
    obtain ⟨new, hnew, -⟩ := (hg.effect hp).grows i key
    obtain ⟨rest, hrest⟩ := ih
    exact ⟨new ++ rest, by rw [hrest, hnew, hq.entries_eq, List.append_assoc]⟩

theorem exists_appends (hc : Course p w hs v) {i k : ℕ} {key : String}
    (hw : (w.entries i key).length ≤ k) (hv : k < (v.entries i key).length) :
    ∃ inside h rest, hs = inside ++ h :: rest ∧ h.Appends i key k := by
  induction hc with
  | quiet hq =>
    rw [hq.entries_eq] at hv
    omega
  | @handled w v h hs hq hg _ ih =>
    by_cases hk : k < (h.after.entries i key).length
    · rw [← hq.entries_eq] at hw
      exact ⟨[], h, hs, rfl, hw, hk⟩
    · obtain ⟨inside, g, rest, rfl, hg⟩ := ih (by omega) hv
      exact ⟨h :: inside, g, rest, rfl, hg⟩

end Course

namespace Cluster

open PodWatch

/-- What an object shows when the session of its pod is enqueued; texts that it does not have are
empty. -/
structure Object.ShowsReady (rules : Rules) (o : Object) (r : Ready) : Prop where
  session : o.labels.get? rules.sessionLabel = some r.sessionId
  session_ne : r.sessionId ≠ ""
  managed : o.labels.get? rules.managedLabel ≠ some "false"
  running : textOf (contentField o "status") "phase" = "Running"
  conditions : ∀ name ∈ ["Initialized", "PodScheduled", "ContainersReady", "Ready"],
    ∃ c ∈ listOf (contentField o "status") "conditions",
      textOf (some c) "type" = name ∧ textOf (some c) "status" = "True"
  kept : o.metadata.deleting = false
  node : textOf (contentField o "spec") "nodeName" = r.nodeName
  ip : textOf (contentField o "status") "podIP" = r.podIp

namespace PodWatch

theorem Observed.of_ready_mem_facts {o : Observed} {pod : Pod} (h : .pod .ready pod ∈ o.facts) :
    o.phase = "Running" ∧ o.isReady = true ∧ o.deleting = false ∧ o.pod = pod := by
  unfold facts at h
  split at h
  · simp at h
  · simp at h
  · simp at h
  · split at h <;> simp at h
  · next hphase =>
    simp only [runningFacts] at h
    cases hready : o.isReady <;> cases hdel : o.deleting <;> cases hcr : o.crashed <;>
      simp_all [isDeletion]
  · simp at h

theorem ready_of_mem_facts {schema : Schema} {rules : Rules} {c : Callback} {pod : Pod}
    (h : .pod .ready pod ∈ facts schema rules c) :
    ∃ old new o, c = .updated old new ∧ observed? schema rules new = some o ∧ o.inSession = true ∧
      .pod .ready pod ∈ o.facts := by
  cases c with
  | added o =>
    simp only [facts] at h
    split at h
    · split at h <;> simp at h
    · simp at h
  | updated old new =>
    simp only [facts] at h
    split at h
    · next o ho =>
      split at h
      · next hin => exact ⟨old, new, o, rfl, ho, hin, h⟩
      · simp at h
    · simp at h
  | deleted o => simp [facts] at h
  | failed message => simp [facts] at h

theorem showsReady_of_mem_facts {schema : Schema} {rules : Rules} {c : Callback} {pod : Pod}
    (h : .pod .ready pod ∈ facts schema rules c) (tn tp : Int64) :
    ∃ old new, c = .updated old new ∧
      new.ShowsReady rules ⟨pod.sessionId, pod.nodeName, tn, tp, pod.ip⟩ := by
  obtain ⟨old, new, o, rfl, ho, hin, hmem⟩ := ready_of_mem_facts h
  obtain ⟨hphase, hready, hdel, rfl⟩ := Observed.of_ready_mem_facts hmem
  obtain ⟨hs, hn, hip, hm, hp, hc, hd⟩ := of_observed? ho
  simp only [Observed.inSession, Bool.and_eq_true, bne_iff_ne, ne_eq] at hin
  refine ⟨old, new, rfl, ?_, hin.1, ?_, hp ▸ hphase, ?_, hd ▸ hdel, hn.symm, hip.symm⟩
  · cases hl : new.labels.get? rules.sessionLabel with
    | none => exact absurd (by rw [hs, hl]; rfl) hin.1
    | some s => rw [hs, hl]; rfl
  · simpa [hm] using hin.2
  · intro name hname
    have htrue : o.isTrue name = true := by
      simp only [Observed.isReady, List.all_eq_true] at hready
      exact hready name hname
    rw [Observed.isTrue, hc, List.contains_iff_mem, List.mem_map] at htrue
    obtain ⟨cond, hcond, heq⟩ := htrue
    exact ⟨cond, hcond, congrArg Prod.fst heq, congrArg Prod.snd heq⟩

end PodWatch

end Cluster

namespace Pipeline

variable {p : Pipeline}

/-- An entry that a run has added was added in one of its occasions. -/
theorem exists_occasion {w : World} {os : List Occasion} {i k : ℕ} {key : String}
    (hw : (w.entries i key).length ≤ k) (hv : k < ((p.meetAll w os).entries i key).length) :
    ∃ pre o post, os = pre ++ o :: post ∧ ((p.meetAll w pre).entries i key).length ≤ k ∧
      k < ((p.meet (p.meetAll w pre) o).entries i key).length := by
  induction os generalizing w with
  | nil =>
    rw [meetAll_nil] at hv
    omega
  | cons o os ih =>
    by_cases hk : k < ((p.meet w o).entries i key).length
    · exact ⟨[], o, os, rfl, hw, hk⟩
    · obtain ⟨pre, o', post, rfl, hlo, hhi⟩ := ih (w := p.meet w o) (by omega) hv
      exact ⟨o :: pre, o', post, rfl, hlo, hhi⟩

theorem exists_moment {w : World} {os : List Occasion} {i k : ℕ} {key : String}
    (hw : (w.entries i key).length ≤ k) (hv : k < ((p.meetAll w os).entries i key).length) :
    ∃ m : Moment p w os, m.handling.Appends i key k := by
  obtain ⟨pre, o, post, hos, hlo, hhi⟩ := exists_occasion hw hv
  obtain ⟨inside, h, rest, hhs, happ⟩ :=
    (p.course_handlings (p.meetAll w pre) o).exists_appends hlo hhi
  exact ⟨⟨pre, o, post, inside, h, rest, hos, hhs⟩, happ⟩

end Pipeline

namespace Moment

variable {p : Pipeline} {w : World} {os : List Occasion} (m : Moment p w os)

theorem remembers (hp : p.subscriptions = Handler.wired) (hw : w.cache = ∅) :
    m.handling.before.Remembers m.past := by
  have hstart : w.Remembers [] := ⟨fun n => by rw [hw]; rfl, fun s t ht => by simp [hw] at ht⟩
  have hpast := hstart.of_course hp m.courses.1
  rwa [List.nil_append] at hpast

theorem appended (hp : p.subscriptions = Handler.wired) {i k : ℕ} {key : String}
    {f : Storage.Fields} (ha : m.handling.Appends i key k)
    (hf : ((p.meetAll w os).entries i key)[k]? = some f) :
    Appended p.workplace.streams m.handling.before key f m.handling.event.fact := by
  obtain ⟨-, hgenuine, hs, hafter⟩ := m.courses
  obtain ⟨more, hmore⟩ := hafter.entries_append hp i key
  obtain ⟨new, hnew, happ⟩ := (hgenuine.effect hp).grows i key
  rw [hmore, List.getElem?_append_left ha.2, hnew, List.getElem?_append_right ha.1] at hf
  exact happ f (List.mem_of_getElem? hf)

end Moment

/-- Every task to enqueue a session was appended in a callback about a ready pod of that session,
and carries the times that were recorded last for the pod's node and for the session. -/
theorem enqueued_of_ready_pod (s : Settings) (schema : Schema) (n : ℕ) {w : World}
    (hw : w.cache = ∅) (os : List Occasion) {i k : ℕ} {f : Storage.Fields}
    (hk : (w.entries i s.enqueueStream).length ≤ k)
    (hf : (((s.pipeline n Handler.wired schema).meetAll w os).entries i s.enqueueStream)[k]? =
      some f)
    (hkind : f.lookup "TaskType" = some "EnqueueSession") :
    ∃ (m : Moment (s.pipeline n Handler.wired schema) w os) (r : Ready) (pod : Pod)
      (old new : Object) (weather : Weather),
      (f.lookup "TaskInfo").bind Ready.decode? = some r ∧
        m.occasion = ⟨.pods, .updated old new, weather⟩ ∧
        m.handling.event.fact = .pod .ready pod ∧ m.handling.Appends i s.enqueueStream k ∧
        new.ShowsReady s.podRules r ∧
        lastProvision m.past r.nodeName = some r.nodeProvisioned ∧
        lastSchedule m.past r.sessionId = some r.podScheduled := by
  obtain ⟨m, happends⟩ := Pipeline.exists_moment hk (List.getElem?_eq_some_iff.1 hf).1
  have hremembers := m.remembers rfl hw
  have happended := m.appended rfl happends hf
  have hfact := m.fact_mem
  cases hkey : m.handling.event.fact
  all_goals rw [hkey] at happended hfact; cases happended
  case pod.deleted pod hcarries =>
    rw [hcarries.lookup_kind] at hkind
    simp [TaskKind.name] at hkind
  case pod.enqueued pod tn tp hn hs hcarries =>
    obtain ⟨hresource, hpod⟩ := Pipeline.pod_of_mem_facts hfact
    obtain ⟨old, new, hcallback, hshows⟩ := PodWatch.showsReady_of_mem_facts hpod tn tp
    have hoccasion : m.occasion = ⟨.pods, .updated old new, m.occasion.weather⟩ := by
      rw [← hresource, ← hcallback]
    have hread : (f.lookup "TaskInfo").bind Ready.decode? =
        some ⟨pod.sessionId, pod.nodeName, tn, tp, pod.ip⟩ := by
      rw [hcarries.lookup_info, Option.bind_some, Ready.decode?_encode]
    rw [hremembers.node] at hn
    exact ⟨m, _, pod, old, new, m.occasion.weather, hread, hoccasion, hkey, happends, hshows, hn,
      hremembers.session _ _ hs⟩

/-- A node is provisioned, a pod is scheduled, and when it is ready only the second backend takes
the task. -/
def Sample.enqueuing : List Occasion :=
  [⟨.nodes, .added node, calm 1000⟩, ⟨.pods, .updated node pending, calm 2000⟩,
    ⟨.pods, .updated pending ready,
      fun _ => ⟨⟨3000, 0⟩, fun i => if i = 0 then [.append] else []⟩⟩]

def Sample.task : Task := ⟨.enqueue, (Ready.mk "s1" "n1" 1 2 "10.0.0.1").encode, 3⟩

theorem enqueued_of_ready_pod_sample :
    Sample.world.cache = ∅ ∧
      (Sample.world.entries 1 (Settings.enqueueStream {})).length ≤ 0 ∧
      (((Settings.pipeline {} 2 Handler.wired).meetAll Sample.world Sample.enqueuing).entries 1
        (Settings.enqueueStream {}))[0]? = some Sample.task.fields ∧
      Sample.task.fields.lookup "TaskType" = some "EnqueueSession" ∧
      ∃ m : Moment (Settings.pipeline {} 2 Handler.wired) Sample.world Sample.enqueuing,
        m.handling.Appends 1 (Settings.enqueueStream {}) 0 ∧
          lastProvision m.past "n1" = some 1 ∧ lastSchedule m.past "s1" = some 2 := by
  have hk : (Sample.world.entries 1 (Settings.enqueueStream {})).length ≤ 0 := by decide +kernel
  have hf : (((Settings.pipeline {} 2 Handler.wired).meetAll Sample.world
      Sample.enqueuing).entries 1 (Settings.enqueueStream {}))[0]? = some Sample.task.fields := by
    decide +kernel
  obtain ⟨m, r, -, -, -, -, hr, -, -, happends, -, hn, hs⟩ :=
    enqueued_of_ready_pod {} .v1 2 rfl Sample.enqueuing hk hf rfl
  obtain rfl : Ready.mk "s1" "n1" 1 2 "10.0.0.1" = r := by
    have hinfo : Sample.task.fields.lookup "TaskInfo" = some Sample.task.info := rfl
    rw [hinfo, Option.bind_some, Sample.task, Ready.decode?_encode] at hr
    exact Option.some.inj hr
  exact ⟨rfl, hk, hf, rfl, m, happends, hn, hs⟩

end SessionWatch
