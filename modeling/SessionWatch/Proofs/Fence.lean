import SessionWatch.Application
import SessionWatch.Proofs.FanOut
import SessionWatch.Proofs.Looks
import SessionWatch.Proofs.Times

/-!
Sessions whose deletion succeeded. Until their pod is scheduled again nothing is appended for them
and a ready pod of theirs fails; a deletion that did not succeed has no such consequence.
-/

namespace SessionWatch

open Session

namespace Handling

/-- The handling of a pod's deletion, readiness or scheduling for a session. -/
def Is (h : Handling) (change : PodChange) (s : String) : Prop :=
  ∃ pod, h.event.fact = .pod change pod ∧ pod.sessionId = s

instance (h : Handling) (change : PodChange) (s : String) : Decidable (h.Is change s) :=
  match hfact : h.event.fact with
  | .pod c pod =>
    if hc : c = change ∧ pod.sessionId = s then .isTrue ⟨pod, hc.1 ▸ hfact, hc.2⟩
    else .isFalse fun ⟨pod', hpod, hs⟩ => hc (by cases hfact.symm.trans hpod; exact ⟨rfl, hs⟩)
  | .node .. | .nodeWatchFailed _ | .podWatchFailed _ =>
    .isFalse fun ⟨pod', hpod, _⟩ => by cases hfact.symm.trans hpod

def Succeeds (h : Handling) : Prop := h.outcome = some (.ok ())

instance (h : Handling) : Decidable h.Succeeds :=
  match houtcome : h.outcome with
  | some (.ok ()) => .isTrue houtcome
  | some (.error r) => .isFalse fun h => by cases houtcome.symm.trans h
  | none => .isFalse fun h => by cases houtcome.symm.trans h

end Handling

/-- An entry that enqueues another session, or none. -/
def Session.Spares (s : String) (f : Storage.Fields) : Prop :=
  f.lookup "TaskType" = some "EnqueueSession" →
    ∃ r, (f.lookup "TaskInfo").bind Ready.decode? = some r ∧ r.sessionId ≠ s

theorem Appended.spares {streams : Streams} {w : World} {key : String} {f : Storage.Fields}
    {fact : Fact} {s : String} (h : Appended streams w key f fact)
    (hw : w.cache.get? (podKey s) = none) : Spares s f := by
  intro hkind
  cases h with
  | @enqueued pod tn tp hn hp hcarries =>
    refine ⟨⟨pod.sessionId, pod.nodeName, tn, tp, pod.ip⟩, ?_, ?_⟩
    · rw [hcarries.lookup_info, Option.bind_some, Ready.decode?_encode]
    · rintro rfl
      rw [hw] at hp
      cases hp
  | deleted hcarries =>
    rw [hcarries.lookup_kind] at hkind
    simp [TaskKind.name] at hkind

theorem Effect.ready_fails {streams : Streams} {w v : World} {pod : Pod}
    {x : Option (Result Unit)} (h : Effect streams w v (.pod .ready pod) x)
    (hw : w.cache.get? (podKey pod.sessionId) = none) : ∃ r, x = some (.error r) := by
  cases h with
  | idle hidle _ => cases hidle
  | enqueued tn tp _ hp _ _ =>
    rw [hw] at hp
    cases hp
  | unknown r _ _ _ => exact ⟨r, rfl⟩

namespace Course

variable {p : Pipeline} {w v : World} {hs : List Handling} {s : String}

/-- The time of a session stays unknown where no scheduling for it succeeds. -/
theorem fenced (hp : p.subscriptions = Handler.wired) (hc : Course p w hs v)
    (hw : w.cache.get? (podKey s) = none)
    (hno : ∀ g ∈ hs, g.Is .recordSchedule s → ¬ g.Succeeds) :
    v.cache.get? (podKey s) = none ∧ (∀ g ∈ hs, g.Is .ready s → ∃ r, g.outcome = some (.error r)) ∧
      w.Grows v fun _ f => Spares s f := by
  induction hc with
  | quiet hq =>
    refine ⟨by rw [hq.cache, hw], by simp, hq.entries.mono fun _ _ hf => hf.elim⟩
  | @handled w v h hs hq hg hc ih =>
    have heffect := hg.effect hp
    have hbefore : h.before.cache.get? (podKey s) = none := by rw [hq.cache, hw]
    have hafter : h.after.cache.get? (podKey s) = none := by
      rcases heffect.session_cases s with ⟨-, hkept⟩ | ⟨pod, t, hfact, hs, hok, -, -⟩ |
        ⟨pod, -, -, -, hnone⟩
      · rw [hkept, hbefore]
      · exact absurd hok (hno h (by simp) ⟨pod, hfact, hs⟩)
      · exact hnone
    obtain ⟨hv, hfail, hgrows⟩ := ih hafter fun g hg => hno g (by simp [hg])
    refine ⟨hv, fun g hgmem hready => ?_, ?_⟩
    · rcases List.mem_cons.1 hgmem with rfl | hgmem
      · obtain ⟨pod, hfact, rfl⟩ := hready
        rw [hfact] at heffect
        exact heffect.ready_fails hbefore
      · exact hfail g hgmem hready
    · have hquiet : w.Grows h.before fun _ f => Spares s f := hq.entries.mono fun _ _ hf => hf.elim
      exact (hquiet.trans (heffect.grows.mono fun _ _ hf => hf.spares hbefore)).trans hgrows

end Course

/-- A backend that tells the time and then takes an entry for a stream, if nothing is refused. -/
def Storage.Backend.Serves (b : Backend) (stream : String) : Prop :=
  ∀ c c' id fields, ∃ t a, ((b.refusing []).exchange c .time).2 = some (.ok t) ∧
    ((((b.refusing []).exchange c .time).1.refusing []).exchange c'
      (.append stream id fields)).2 = some (.ok a)

theorem Storage.Memory.serves (m : Memory) (stream : String) :
    (Backend.memory m).Serves stream :=
  fun _ _ _ _ => ⟨_, _, rfl, rfl⟩

structure World.Serves (w : World) (n : ℕ) (stream : String) : Prop where
  length : w.backends.length = n
  nonempty : w.backends ≠ []
  each : ∀ b ∈ w.backends, b.Serves stream

theorem Session.push_play_ok {n : ℕ} {stream : String} (kind : TaskKind) (info : String)
    {w : World} {ω : Weather} (hw : w.Serves n stream) (hω : Weather.Calm ω) :
    ∃ id, ((push n stream kind info).play ⟨w, ω⟩).2 = some (.ok id) := by
  obtain ⟨rfl, hne, heach⟩ := hw
  have htime := Storage.fanOut_ok (r := .time) (w := w) (ω := ω) hne fun i b hb => by
    obtain ⟨t, -, ht, -⟩ := heach b (List.mem_of_getElem? hb) (ω i).clock (ω i).clock "" []
    exact ⟨t, by rw [Storage.Backend.asked, hω, ht]⟩
  have hcalm := (Storage.fanOut w.backends.length .time).play_calm (c := ⟨w, ω⟩) hω
  rcases hplay : (Storage.fanOut w.backends.length .time).play ⟨w, ω⟩ with ⟨⟨v, ω'⟩, x⟩
  rw [hplay] at htime hcalm
  obtain ⟨hbackends, t, rfl⟩ := htime
  have hlength : v.backends.length = w.backends.length := by
    rw [hbackends, List.length_mapIdx]
  have hne' : v.backends ≠ [] := by
    intro h
    rw [h, List.length_nil] at hlength
    exact hne (List.eq_nil_of_length_eq_zero hlength.symm)
  obtain ⟨-, id, hid⟩ := Storage.fanOut_ok
    (r := .append stream Storage.automaticId (Task.mk kind info t).fields) (w := v) (ω := ω') hne'
    fun i b' hb' => by
      rw [hbackends, List.getElem?_mapIdx] at hb'
      obtain ⟨b, hb, rfl⟩ := Option.map_eq_some_iff.1 hb'
      obtain ⟨-, a, -, ha⟩ := heach b (List.mem_of_getElem? hb) (ω i).clock (ω' i).clock
        Storage.automaticId (Task.mk kind info t).fields
      exact ⟨a, by rw [Storage.Backend.asked, Storage.Backend.asked, hω, hcalm, ha]⟩
  rw [hlength] at hid
  refine ⟨id, ?_⟩
  rcases happend : (Storage.fanOut w.backends.length (.append stream Storage.automaticId
    (Task.mk kind info t).fields)).play ⟨v, ω'⟩ with ⟨c, y⟩
  rw [happend] at hid
  obtain rfl : y = some (.ok id) := hid
  rw [push, Plan.bind_eq, Plan.play_bind_of_some hplay]
  exact congrArg Prod.snd (Plan.play_bind_of_some happend _)

theorem Workplace.enqueueSession_play_ok {p : Workplace} {pod : Pod} {w : World} {ω : Weather}
    {tn tp : Int64} (hn : w.cache.get? (nodeKey pod.nodeName) = some tn)
    (hp : w.cache.get? (podKey pod.sessionId) = some tp)
    (hw : w.Serves p.backends p.streams.enqueue) (hω : Weather.Calm ω) :
    ((p.enqueueSession pod).play ⟨w, ω⟩).2 = some (.ok ()) := by
  have hserves : ∀ clock notes, ({ w with clock := clock, notes := notes } : World).Serves
      p.backends p.streams.enqueue := fun _ _ => ⟨hw.length, hw.nonempty, hw.each⟩
  have hcalm : Weather.Calm fun k => ω (k + 5) := fun k i => hω (k + 5) i
  obtain ⟨id, hid⟩ := Session.push_play_ok .enqueue
    (Ready.mk pod.sessionId pod.nodeName tn tp pod.ip).encode (hserves (ω 4).clock _) hcalm
  obtain ⟨hplay, -⟩ := enqueueSession_of_known (p := p) ω hn hp
  rw [hplay, tell, Plan.play_bind_of_some (Plan.play_note _ _ _), Plan.play_bind_done, setReady]
  exact congrArg (Option.map _) hid

/-- The world that a run has come to when these handlings are still ahead. -/
def Pipeline.worldAhead (p : Pipeline) (w : World) (os : List Occasion) (ahead : List Handling) :
    World :=
  (ahead.head?.map (·.before)).getD (p.meetAll w os)

namespace Course

variable {p : Pipeline} {w v : World} {hs gs : List Handling}

theorem until_ahead (hc : Course p w (hs ++ gs) v) :
    Course p w hs ((gs.head?.map (·.before)).getD v) := by
  cases gs with
  | nil =>
    rw [List.append_nil] at hc
    exact hc
  | cons g gs => exact hc.cut.1

end Course

theorem Effect.cache_of_delete {streams : Streams} {w v : World} {pod : Pod}
    {x : Option (Result Unit)} (h : Effect streams w v (.pod .delete pod) x) :
    (x = some (.ok ()) → v.cache = w.cache.erase (podKey pod.sessionId)) ∧
      (x ≠ some (.ok ()) → v.cache = w.cache) := by
  cases h with
  | idle hidle _ => cases hidle
  | deleted hcache _ => exact ⟨fun _ => hcache, fun hx => absurd rfl hx⟩
  | undeleted hx hcache _ => exact ⟨fun hok => absurd hok hx, fun _ => hcache⟩

/-- Once a deletion has succeeded, and until a scheduling succeeds, ready pods of the session fail
and nothing that is appended enqueues it. A deletion that does not succeed leaves the times, and a
ready pod of the session is enqueued afterwards as it would have been before. -/
theorem deletion_fences (s : Settings) (schema : Cluster.Schema) (n : ℕ) (w : World)
    (os : List Occasion) {pre mid post : List Handling} {d : Handling} {session : String}
    (hrun : (s.pipeline n Handler.wired schema).history w os = pre ++ d :: (mid ++ post))
    (hd : d.Is .delete session) :
    (d.Succeeds → (∀ g ∈ mid, g.Is .recordSchedule session → ¬ g.Succeeds) →
      (∀ g ∈ mid, g.Is .ready session → ∃ r, g.outcome = some (.error r)) ∧
        ∀ i key, ∃ new,
          ((s.pipeline n Handler.wired schema).worldAhead w os post).entries i key =
            d.after.entries i key ++ new ∧ ∀ f ∈ new, Spares session f) ∧
    (¬ d.Succeeds →
      d.after.cache = d.before.cache ∧
        ∀ (e : Event) (pod : Pod) (ω : Weather), e.fact = .pod .ready pod →
          pod.sessionId = session →
          (d.before.cache.get? (nodeKey pod.nodeName)).isSome →
          (d.before.cache.get? (podKey session)).isSome →
          d.after.Serves n s.enqueueStream → ω.Calm →
          (((s.pipeline n Handler.wired schema).workplace.handle .pods e).play ⟨d.after, ω⟩).2 =
            some (.ok ())) := by
  obtain ⟨pod, hfact, rfl⟩ := hd
  have hcourse := (s.pipeline n Handler.wired schema).course_history w os
  rw [hrun] at hcourse
  obtain ⟨-, hgenuine, hafter⟩ := hcourse.cut
  have heffect := hgenuine.effect rfl
  rw [hfact] at heffect
  refine ⟨fun hok hno => ?_, fun hfailed => ?_⟩
  · have hnone : d.after.cache.get? (podKey pod.sessionId) = none := by
      rw [heffect.cache_of_delete.1 hok, Table.get?_erase, if_pos rfl]
    obtain ⟨-, hready, hgrows⟩ := hafter.until_ahead.fenced rfl hnone hno
    exact ⟨hready, hgrows⟩
  · have hcache := heffect.cache_of_delete.2 hfailed
    refine ⟨hcache, fun e ready ω he hs hn hp hserves hω => ?_⟩
    obtain ⟨tn, htn⟩ := Option.isSome_iff_exists.1 hn
    obtain ⟨tp, htp⟩ := Option.isSome_iff_exists.1 hp
    rw [← hcache] at htn htp
    rw [← hs] at htp
    obtain ⟨stamp, fact, metadata⟩ := e
    obtain rfl : fact = .pod .ready ready := he
    exact Workplace.enqueueSession_play_ok htn htp hserves hω

/-- A pod is scheduled, its deletion fails and then succeeds, and it is found ready before it is
scheduled again. -/
def Sample.fencing : List Occasion :=
  [⟨.nodes, .added node, calm 1000⟩, ⟨.pods, .updated pending pending, calm 2000⟩,
    ⟨.pods, .updated pending (pod "Failed" []),
      fun _ => ⟨⟨3000, 0⟩, fun i => if i = 0 then [.append] else []⟩⟩,
    ⟨.pods, .updated pending (pod "Failed" []), calm 4000⟩,
    ⟨.pods, .updated pending ready, calm 5000⟩, ⟨.pods, .updated pending pending, calm 6000⟩]

def Sample.history : List Handling :=
  (Settings.pipeline {} 2 Handler.wired).history world fencing

theorem Sample.length_history : history.length = 8 := by decide +kernel

def Sample.failedDeletion : Handling := history.get ⟨4, by rw [length_history]; decide⟩

def Sample.deletion : Handling := history.get ⟨5, by rw [length_history]; decide⟩

def Sample.readiness : Event := ⟨⟨0, 0⟩, .pod .ready ⟨"p1", "", "s1", "n1", "10.0.0.1"⟩, ∅⟩

theorem deletion_fences_sample :
    (Sample.deletion.Is .delete "s1" ∧ Sample.deletion.Succeeds ∧
      (∀ g ∈ (Sample.history.drop 6).take 1, g.Is .ready "s1" ∧
        ∃ r, g.outcome = some (.error r)) ∧
      ∀ i key, ∃ new, ((Settings.pipeline {} 2 Handler.wired).worldAhead Sample.world Sample.fencing
        (Sample.history.drop 7)).entries i key = Sample.deletion.after.entries i key ++ new ∧
          ∀ f ∈ new, Spares "s1" f) ∧
    Sample.failedDeletion.Is .delete "s1" ∧ ¬ Sample.failedDeletion.Succeeds ∧
      (((Settings.pipeline {} 2 Handler.wired).workplace.handle .pods Sample.readiness).play
        ⟨Sample.failedDeletion.after, Sample.calm 5000⟩).2 = some (.ok ()) := by
  have hcut : ∀ k (hk : k < Sample.history.length), Sample.history =
      Sample.history.take k ++ Sample.history.get ⟨k, hk⟩ :: ((Sample.history.drop (k + 1)).take 1 ++
        Sample.history.drop (k + 2)) := by
    intro k hk
    have hdrop : Sample.history.drop (k + 2) = (Sample.history.drop (k + 1)).drop 1 := by
      rw [List.drop_drop]
    rw [hdrop, List.take_append_drop, List.get_eq_getElem, ← List.drop_eq_getElem_cons,
      List.take_append_drop]
  have hdeletion : Sample.deletion.Is .delete "s1" := by decide +kernel
  have hsucceeds : Sample.deletion.Succeeds := by decide +kernel
  have hready : ∀ g ∈ (Sample.history.drop 6).take 1, g.Is .ready "s1" := by decide +kernel
  have hno : ∀ g ∈ (Sample.history.drop 6).take 1, g.Is .recordSchedule "s1" → ¬ g.Succeeds := by
    decide +kernel
  have hfailedDeletion : Sample.failedDeletion.Is .delete "s1" := by decide +kernel
  have hfails : ¬ Sample.failedDeletion.Succeeds := by decide +kernel
  have hserves : Sample.failedDeletion.after.Serves 2 (Settings.enqueueStream {}) := by
    have hmemory : ∀ b ∈ Sample.failedDeletion.after.backends, b.memory?.isSome := by
      decide +kernel
    refine ⟨by decide +kernel, by decide +kernel, fun b hb => ?_⟩
    cases b with
    | memory m => exact m.serves _
    | redis c => exact absurd (hmemory _ hb) (by simp [Storage.Backend.memory?])
  obtain ⟨hfence, -⟩ := deletion_fences {} .v1 2 Sample.world Sample.fencing (hcut 5 _) hdeletion
  obtain ⟨-, hopen⟩ :=
    deletion_fences {} .v1 2 Sample.world Sample.fencing (hcut 4 _) hfailedDeletion
  obtain ⟨herrors, hentries⟩ := hfence hsucceeds hno
  have hknown := (hopen hfails).2 Sample.readiness _ (Sample.calm 5000) rfl rfl (by decide +kernel)
    (by decide +kernel) hserves fun _ _ => rfl
  exact ⟨⟨hdeletion, hsucceeds, fun g hg => ⟨hready g hg, herrors g hg (hready g hg)⟩, hentries⟩,
    hfailedDeletion, hfails, hknown⟩

end SessionWatch
