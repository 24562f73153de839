import SessionWatch.Handler
import SessionWatch.Proofs.Entries
import SessionWatch.Proofs.FlatObject

/-!
What one handling of an event does to the times, the calls and the streams. This is all that
runs of the monitor are reasoned about with: a fact determines what may be recorded, forgotten and
appended, and whether the handling succeeds.
-/

namespace SessionWatch

open Session

namespace World

variable {w v : World}

/-- The same worlds but for one more note. -/
def Noted (w v : World) (n : Note) : Prop :=
  v.cache = w.cache ∧ v.notes = w.notes ++ [n] ∧ ∀ i key, v.entries i key = w.entries i key

end World

namespace Plan

theorem note_ensures (n : Note) (w : World) :
    (note n).Ensures w fun v x => w.Noted v n ∧ x = some () :=
  once_ensures fun _ => ⟨⟨rfl, rfl, fun _ _ => rfl⟩, rfl⟩

theorem remember_ensures (key : String) (t : Int64) (w : World) :
    (remember key t).Ensures w fun v x =>
      v.cache = w.cache.insert key t ∧ v.notes = w.notes ∧
        (∀ i k, v.entries i k = w.entries i k) ∧ x = some () :=
  once_ensures fun _ => ⟨rfl, rfl, fun _ _ => rfl, rfl⟩

theorem forget_ensures (key : String) (w : World) :
    (forget key).Ensures w fun v x =>
      v.cache = w.cache.erase key ∧ (∀ i k, v.entries i k = w.entries i k) ∧ x.isSome :=
  once_ensures fun _ => ⟨rfl, fun _ _ => rfl, rfl⟩

end Plan

namespace Session

def Carries (stream : String) (kind : TaskKind) (info : String) (key : String)
    (f : Storage.Fields) : Prop :=
  key = stream ∧ ∃ t, f = Task.fields ⟨kind, info, t⟩

theorem Carries.lookup_kind {stream info key : String} {kind : TaskKind} {f : Storage.Fields}
    (h : Carries stream kind info key f) : f.lookup "TaskType" = some kind.name := by
  obtain ⟨-, t, rfl⟩ := h
  rfl

theorem Carries.lookup_info {stream info key : String} {kind : TaskKind} {f : Storage.Fields}
    (h : Carries stream kind info key f) : f.lookup "TaskInfo" = some info := by
  obtain ⟨-, t, rfl⟩ := h
  rfl

theorem push_ensures (n : ℕ) (stream : String) (kind : TaskKind) (info : String) (w : World) :
    (push n stream kind info).Ensures w fun v _ => w.Extends v (Carries stream kind info) := by
  have htime : ∀ v, w.Extends v (Storage.Request.Adds .time) → w.Quiet v := fun v hv =>
    hv.mono fun _ _ hf => hf
  refine (Storage.fanOut_ensures n .time w).bind (fun v a hv => ?_) fun v hv =>
    (htime v hv).extends
  cases a with
  | error r => exact .done (htime v hv).extends
  | ok t =>
    let task : Task := ⟨kind, info, t⟩
    have happend : ∀ u, v.Extends u (Storage.Request.Adds
        (.append stream Storage.automaticId task.fields)) →
        w.Extends u (Carries stream kind info) := by
      intro u hu
      refine (htime v hv).extends.trans (hu.mono fun key f hf => ?_)
      exact ⟨hf.1.symm, t, hf.2.symm⟩
    refine (Storage.fanOut_ensures n _ v).bind (fun u b hu => ?_) happend
    cases b with
    | error r => exact .done (happend u hu)
    | ok id => exact .done (happend u hu)

theorem timeUnder_ensures (key : String) (w : World) :
    (timeUnder key).Ensures w fun v x => w.Quiet v ∧
      x = some (match w.cache.get? key with
        | some t => .ok t
        | none => .error (.of (.session (.keyNotFound key)))) := by
  refine (Plan.consult_ensures key w).bind (fun v a hv => ?_) fun v hv => by simp at hv
  obtain ⟨hq, ha⟩ := hv
  obtain rfl : a = w.cache.get? key := by simpa using ha
  cases h : w.cache.get? key with
  | some t => exact .done ⟨hq, rfl⟩
  | none => exact .done ⟨hq, rfl⟩

/-- The time of a pod's scheduling is forgotten just if the task was written everywhere. -/
theorem setDeletable_ensures (n : ℕ) (streams : Streams) (d : Deletable) (w : World) :
    (setDeletable n streams d).Ensures w fun v x =>
      w.Grows v (Carries streams.delete .delete d.encode) ∧
        ((∃ id, x = some (.ok id)) ∧ v.cache = w.cache.erase (podKey d.sessionId) ∨
          (∀ id, x ≠ some (.ok id)) ∧ v.cache = w.cache) := by
  refine (push_ensures n streams.delete .delete d.encode w).bind (fun v a hv => ?_) fun v hv =>
    ⟨hv.entries, .inr ⟨by simp, hv.cache⟩⟩
  cases a with
  | error r => exact .done ⟨hv.entries, .inr ⟨by simp, hv.cache⟩⟩
  | ok id =>
    refine (Plan.forget_ensures _ v).bind (fun u b hu => ?_) fun u hu => by simp at hu
    obtain ⟨hcache, hentries, -⟩ := hu
    refine .done ⟨hv.entries.trans (.of_eq hentries), .inl ⟨⟨id, rfl⟩, ?_⟩⟩
    rw [hcache, hv.cache]

end Session

def Fact.isIdle : Fact → Bool
  | .node .recordProvision _ | .node .updateLabels _ => false
  | .pod .recordSchedule _ | .pod .delete _ | .pod .ready _ => false
  | _ => true

/-- What the handling of a fact may leave behind, and how it may end. -/
inductive Effect (streams : Streams) (w v : World) : Fact → Option (Result Unit) → Prop
  | idle {fact : Fact} : fact.isIdle = true → w.Quiet v → Effect streams w v fact (some (.ok ()))
  | labelled {node : Node} {x : Option (Result Unit)} :
      w.Quiet v → Effect streams w v (.node .updateLabels node) x
  | provisioned {node : Node} {x : Option (Result Unit)} (t : Int64) :
      v.cache = w.cache.insert (nodeKey node.name) t →
      v.notes = w.notes ++ [.called (.setNode node.name t)] →
      (∀ i key, v.entries i key = w.entries i key) →
      Effect streams w v (.node .recordProvision node) x
  | unprovisioned {node : Node} {x : Option (Result Unit)} :
      w.Quiet v → Effect streams w v (.node .recordProvision node) x
  | scheduled {pod : Pod} (t : Int64) :
      v.cache = w.cache.insert (podKey pod.sessionId) t →
      v.notes = w.notes ++ [.called (.setPod pod.sessionId t)] →
      (∀ i key, v.entries i key = w.entries i key) →
      Effect streams w v (.pod .recordSchedule pod) (some (.ok ()))
  | unscheduled {pod : Pod} {x : Option (Result Unit)} :
      x ≠ some (.ok ()) → w.Quiet v → Effect streams w v (.pod .recordSchedule pod) x
  | deleted {pod : Pod} :
      v.cache = w.cache.erase (podKey pod.sessionId) →
      w.Grows v (Carries streams.delete .delete (Deletable.mk pod.sessionId).encode) →
      Effect streams w v (.pod .delete pod) (some (.ok ()))
  | undeleted {pod : Pod} {x : Option (Result Unit)} :
      x ≠ some (.ok ()) → v.cache = w.cache →
      w.Grows v (Carries streams.delete .delete (Deletable.mk pod.sessionId).encode) →
      Effect streams w v (.pod .delete pod) x
  | enqueued {pod : Pod} {x : Option (Result Unit)} (tn tp : Int64) :
      w.cache.get? (nodeKey pod.nodeName) = some tn →
      w.cache.get? (podKey pod.sessionId) = some tp → v.cache = w.cache →
      w.Grows v (Carries streams.enqueue .enqueue
        (Ready.mk pod.sessionId pod.nodeName tn tp pod.ip).encode) →
      Effect streams w v (.pod .ready pod) x
  | unknown {pod : Pod} (r : Report) :
      (w.cache.get? (nodeKey pod.nodeName) = none ∨
        w.cache.get? (podKey pod.sessionId) = none) →
      v.cache = w.cache → (∀ i key, v.entries i key = w.entries i key) →
      Effect streams w v (.pod .ready pod) (some (.error r))

/-- What the handling of a fact may append: a ready pod's session with the times remembered, or a
deleted pod's session. -/
inductive Appended (streams : Streams) (w : World) (key : String) (f : Storage.Fields) :
    Fact → Prop
  | enqueued {pod : Pod} (tn tp : Int64) :
      w.cache.get? (nodeKey pod.nodeName) = some tn →
      w.cache.get? (podKey pod.sessionId) = some tp →
      Carries streams.enqueue .enqueue
        (Ready.mk pod.sessionId pod.nodeName tn tp pod.ip).encode key f →
      Appended streams w key f (.pod .ready pod)
  | deleted {pod : Pod} :
      Carries streams.delete .delete (Deletable.mk pod.sessionId).encode key f →
      Appended streams w key f (.pod .delete pod)

theorem Effect.grows {streams : Streams} {w v : World} {fact : Fact} {x : Option (Result Unit)}
    (h : Effect streams w v fact x) :
    w.Grows v fun key f => Appended streams w key f fact := by
  cases h with
  | idle _ hq => exact hq.entries.mono fun _ _ hf => hf.elim
  | labelled hq => exact hq.entries.mono fun _ _ hf => hf.elim
  | provisioned t _ _ he => exact .of_eq he
  | unprovisioned hq => exact hq.entries.mono fun _ _ hf => hf.elim
  | scheduled t _ _ he => exact .of_eq he
  | unscheduled _ hq => exact hq.entries.mono fun _ _ hf => hf.elim
  | deleted _ he => exact he.mono fun _ _ hf => .deleted hf
  | undeleted _ _ he => exact he.mono fun _ _ hf => .deleted hf
  | enqueued tn tp hn hp _ he => exact he.mono fun _ _ hf => .enqueued tn tp hn hp hf
  | unknown r _ _ he => exact .of_eq he

theorem noteAndRemember_ensures (c : Call) (key : String) (t : Int64) {w v : World}
    (hv : w.Quiet v) :
    ((Plan.note (.called c)).bind fun _ => Plan.remember key t).Ensures v fun u x =>
      u.cache = w.cache.insert key t ∧ u.notes = w.notes ++ [.called c] ∧
        (∀ i k, u.entries i k = w.entries i k) ∧ x = some () := by
  refine (Plan.note_ensures _ v).bind (fun u _ hu => ?_) fun u hu => by simp at hu
  obtain ⟨⟨hucache, hunotes, huentries⟩, -⟩ := hu
  refine (Plan.remember_ensures key t u).mono fun z x hz => ?_
  obtain ⟨hzcache, hznotes, hzentries, hx⟩ := hz
  refine ⟨?_, ?_, fun i k => ?_, hx⟩
  · rw [hzcache, hucache, hv.cache]
  · rw [hznotes, hunotes, hv.notes]
  · rw [hzentries, huentries, hv.entries_eq]

theorem time_ensures (n : ℕ) (w : World) :
    (Storage.fanOut n .time).Ensures w fun v _ => w.Quiet v :=
  (Storage.fanOut_ensures n .time w).mono fun _ _ hv => hv.mono fun _ _ hf => hf

namespace Workplace

variable (p : Workplace)

theorem recordProvision_ensures (node : Node) (w : World) :
    (p.recordProvision node).Ensures w (Effect p.streams w · (.node .recordProvision node)) := by
  refine (time_ensures p.backends w).bind (fun v a hv => ?_) fun v hv => .unprovisioned hv
  cases a with
  | error r => exact .done (.unprovisioned hv)
  | ok t =>
    refine (noteAndRemember_ensures _ _ t hv).bind (fun u _ hu => ?_) fun u hu => by simp at hu
    obtain ⟨hcache, hnotes, hentries, -⟩ := hu
    exact .done (.provisioned t hcache hnotes hentries)

theorem recordSchedule_ensures (pod : Pod) (w : World) :
    (p.recordSchedule pod).Ensures w (Effect p.streams w · (.pod .recordSchedule pod)) := by
  refine (time_ensures p.backends w).bind (fun v a hv => ?_) fun v hv => .unscheduled (by simp) hv
  cases a with
  | error r => exact .done (.unscheduled (by simp) hv)
  | ok t =>
    refine (noteAndRemember_ensures _ _ t hv).bind (fun u _ hu => ?_) fun u hu => by simp at hu
    obtain ⟨hcache, hnotes, hentries, -⟩ := hu
    exact .done (.scheduled t hcache hnotes hentries)

theorem noteAndPush_ensures (n : ℕ) (c : Call) (stream : String) (kind : TaskKind)
    (info : String) (w : World) :
    ((Plan.note (.called c)).bind fun _ => push n stream kind info).Ensures w fun v _ =>
      v.cache = w.cache ∧ w.Grows v (Carries stream kind info) := by
  refine (Plan.note_ensures _ w).bind (fun v _ hv => ?_) fun v hv => by simp at hv
  obtain ⟨⟨hcache, -, hentries⟩, -⟩ := hv
  refine (push_ensures n stream kind info v).mono fun u x hu => ?_
  exact ⟨hu.cache.trans hcache, (World.Grows.of_eq hentries).trans hu.entries⟩

theorem deleteSession_ensures (pod : Pod) (w : World) :
    (p.deleteSession pod).Ensures w (Effect p.streams w · (.pod .delete pod)) := by
  refine (Plan.note_ensures _ w).bind (fun v _ hv => ?_) fun v hv => by simp at hv
  obtain ⟨⟨hcache, -, hentries⟩, -⟩ := hv
  have hgrows : ∀ u, v.Grows u (Carries p.streams.delete .delete
      (Deletable.mk pod.sessionId).encode) → w.Grows u (Carries p.streams.delete .delete
      (Deletable.mk pod.sessionId).encode) := fun u hu => (World.Grows.of_eq hentries).trans hu
  refine (setDeletable_ensures p.backends p.streams ⟨pod.sessionId⟩ v).bind
    (fun u a hu => ?_) fun u hu => ?_
  · obtain ⟨hu, ⟨⟨id, hid⟩, hforget⟩ | ⟨hne, hkeep⟩⟩ := hu
    · cases hid
      exact .done (.deleted (by rw [hforget, hcache]) (hgrows u hu))
    · cases a with
      | error r => exact .done (.undeleted (by simp) (hkeep.trans hcache) (hgrows u hu))
      | ok id => exact absurd rfl (hne id)
  · obtain ⟨hu, ⟨⟨id, hid⟩, -⟩ | ⟨-, hkeep⟩⟩ := hu
    · cases hid
    · exact .undeleted (by simp) (hkeep.trans hcache) (hgrows u hu)

theorem noteAndConsult_ensures (c : Call) (key : String) (w : World) :
    ((Plan.note (.called c)).bind fun _ => timeUnder key).Ensures w fun v x =>
      v.cache = w.cache ∧ (∀ i k, v.entries i k = w.entries i k) ∧
        x = some (match w.cache.get? key with
          | some t => .ok t
          | none => .error (.of (.session (.keyNotFound key)))) := by
  refine (Plan.note_ensures _ w).bind (fun v _ hv => ?_) fun v hv => by simp at hv
  obtain ⟨⟨hcache, -, hentries⟩, -⟩ := hv
  refine (timeUnder_ensures key v).mono fun u x hu => ?_
  obtain ⟨hq, hx⟩ := hu
  refine ⟨hq.cache.trans hcache, fun i k => (hq.entries_eq i k).trans (hentries i k), ?_⟩
  rw [hx, hcache]

theorem enqueueSession_ensures (pod : Pod) (w : World) :
    (p.enqueueSession pod).Ensures w (Effect p.streams w · (.pod .ready pod)) := by
  refine (noteAndConsult_ensures _ _ w).bind (fun v a hv => ?_) fun v hv => by simp at hv
  obtain ⟨hvcache, hventries, ha⟩ := hv
  cases hn : w.cache.get? (nodeKey pod.nodeName) with
  | none =>
    obtain rfl : a = _ := by simpa [hn] using ha
    exact .done (.unknown _ (.inl hn) hvcache hventries)
  | some tn =>
    obtain rfl : a = .ok tn := by simpa [hn] using ha
    refine (noteAndConsult_ensures _ _ v).bind (fun u b hu => ?_) fun u hu => by simp at hu
    obtain ⟨hucache, huentries, hb⟩ := hu
    have hcache : u.cache = w.cache := hucache.trans hvcache
    have hentries : ∀ i k, u.entries i k = w.entries i k := fun i k =>
      (huentries i k).trans (hventries i k)
    rw [hvcache] at hb
    cases hp : w.cache.get? (podKey pod.sessionId) with
    | none =>
      obtain rfl : b = _ := by simpa [hp] using hb
      exact .done (.unknown _ (.inr hp) hcache hentries)
    | some tp =>
      obtain rfl : b = .ok tp := by simpa [hp] using hb
      have henqueued : ∀ (z : World) x, z.cache = u.cache ∧ u.Grows z (Carries p.streams.enqueue
          .enqueue (Ready.mk pod.sessionId pod.nodeName tn tp pod.ip).encode) →
          Effect p.streams w z (.pod .ready pod) x := fun z x hz =>
        .enqueued tn tp hn hp (hz.1.trans hcache) ((World.Grows.of_eq hentries).trans hz.2)
      refine (noteAndPush_ensures p.backends _ p.streams.enqueue .enqueue _ u).bind
        (fun z c hz => ?_) fun z hz => henqueued z none hz
      cases c with
      | error r => exact .done (henqueued z _ hz)
      | ok id => exact .done (henqueued z _ hz)

theorem updateLabels_ensures (node : Node) (w : World) :
    (p.labelsCache.update p.backends node).Ensures w
      (Effect p.streams w · (.node .updateLabels node)) := by
  unfold LabelsCache.update
  split
  · exact .done (.labelled (World.Quiet.refl w))
  · refine (Storage.fanOut_ensures p.backends _ w).bind (fun v a hv => ?_) fun v hv =>
      .labelled (hv.mono fun _ _ hf => hf)
    cases a with
    | error r => exact .done (.labelled (hv.mono fun _ _ hf => hf))
    | ok n => exact .done (.labelled (hv.mono fun _ _ hf => hf))

end Workplace

def Fact.handler? : Fact → Option Handler
  | .node .. | .nodeWatchFailed _ => some .nodes
  | .pod .. => some .pods
  | .podWatchFailed _ => none

/-- Of the wired handlers just the one that an event is for is subscribed to it. -/
theorem handlersFor_wired (e : Event) :
    Subscription.handlersFor Handler.wired (Named.name e) = e.fact.handler?.toList := by
  obtain ⟨stamp, fact, metadata⟩ := e
  cases fact with
  | node change node => cases change <;> rfl
  | nodeWatchFailed message => rfl
  | pod change pod => cases change <;> rfl
  | podWatchFailed message => rfl

theorem handle_ensures (p : Workplace) {h : Handler} {e : Event} (he : e.fact.handler? = some h)
    (w : World) : (p.handle h e).Ensures w (Effect p.streams w · e.fact) := by
  have hidle : ∀ fact : Fact, fact.isIdle = true →
      (Plan.done (.ok ()) : Plan (Result Unit)).Ensures w (Effect p.streams w · fact) :=
    fun fact hf => .done (.idle hf (World.Quiet.refl w))
  obtain ⟨stamp, fact, metadata⟩ := e
  cases fact with
  | node change node =>
    obtain rfl : Handler.nodes = h := by simpa [Fact.handler?] using he
    cases change with
    | recordProvision => exact p.recordProvision_ensures node w
    | updateLabels => exact p.updateLabels_ensures node w
    | _ => exact hidle _ rfl
  | pod change pod =>
    obtain rfl : Handler.pods = h := by simpa [Fact.handler?] using he
    cases change with
    | recordSchedule => exact p.recordSchedule_ensures pod w
    | delete => exact p.deleteSession_ensures pod w
    | ready => exact p.enqueueSession_ensures pod w
    | add => exact hidle _ rfl
  | nodeWatchFailed message =>
    obtain rfl : Handler.nodes = h := by simpa [Fact.handler?] using he
    exact hidle _ rfl
  | podWatchFailed message => simp [Fact.handler?] at he

end SessionWatch
