import SessionWatch.Proofs.Fence
import SessionWatch.Proofs.Ledger
import SessionWatch.Proofs.Provisioning

/-!
Ready pods that are shown again. Nothing remembers that a session has been enqueued: from the moment
its pod is scheduled until it is deleted, every callback that shows the pod ready has the session
enqueued once more, be it for a change or for a relist in which nothing has changed.
-/

namespace SessionWatch

open Session Storage Cluster

/-! ### Tasks that enqueue sessions -/

def Session.enqueued? (f : Fields) : Option String :=
  if f.lookup "TaskType" = some "EnqueueSession" then
    ((f.lookup "TaskInfo").bind Ready.decode?).map (·.sessionId)
  else none

theorem Session.enqueued?_ready (r : Ready) (t : Int64) :
    enqueued? (Task.mk .enqueue r.encode t).fields = some r.sessionId := by
  have hinfo : (Task.mk .enqueue r.encode t).fields.lookup "TaskInfo" = some r.encode := rfl
  have hkind : (Task.mk .enqueue r.encode t).fields.lookup "TaskType" = some "EnqueueSession" := rfl
  rw [enqueued?, if_pos hkind, hinfo, Option.bind_some, Ready.decode?_encode]
  rfl

def Storage.Ledger.enqueued (stream : String) : Ledger String :=
  (Ledger.entries stream).filterMap enqueued?

theorem Storage.Ledger.adds_enqueued (stream : String) (r : Ready) (t : Int64) :
    (Ledger.enqueued stream).adds
      (.append stream automaticId (Task.mk .enqueue r.encode t).fields) = [r.sessionId] := by
  show (if stream = stream then [_] else []).filterMap enqueued? = _
  rw [if_pos rfl, List.filterMap_cons_some (enqueued?_ready r t), List.filterMap_nil]

theorem Workplace.enqueues_nothing {w : Workplace} {f : Fact} {q : Request} (hq : w.MayAsk f q)
    (hf : ∀ pod, f ≠ .pod .ready pod) (stream : String) : (Ledger.enqueued stream).adds q = [] := by
  cases f with
  | node change node =>
    cases change with
    | updateLabels =>
      obtain ⟨pool, -, rfl⟩ := hq
      rfl
    | recordProvision =>
      obtain rfl : q = .time := hq
      rfl
    | _ => exact hq.elim
  | pod change pod =>
    cases change with
    | add => exact hq.elim
    | recordSchedule =>
      obtain rfl : q = .time := hq
      rfl
    | delete =>
      obtain rfl | ⟨t, rfl⟩ := hq
      · rfl
      · show (if w.streams.delete = stream then [_] else []).filterMap enqueued? = _
        split <;> rfl
    | ready => exact absurd rfl (hf pod)
  | nodeWatchFailed message => exact hq.elim
  | podWatchFailed message => exact hq.elim

/-- Both times that a ready pod needs are known. -/
def World.times? (w : World) (pod : Pod) : Bool :=
  (w.cache.get? (nodeKey pod.nodeName)).isSome && (w.cache.get? (podKey pod.sessionId)).isSome

/-! ### The handling of a ready pod -/

theorem Session.push_gains {i n : ℕ} (hi : i < n) (stream : String) (r : Ready) (c : Scene) :
    (Ledger.enqueued stream).Gains i (push n stream .enqueue r.encode) c [r.sessionId] := by
  have htime : (Ledger.enqueued stream).Gains i (fanOut n .time) c [] :=
    Ledger.gains_fanOut _ c hi trivial
  refine htime.after_nothing fun c₁ a hthrives hplay => ?_
  obtain ⟨c', t, ht⟩ := fanOut_play_of_thrives (by omega) hthrives
  obtain ⟨rfl, rfl⟩ : c' = c₁ ∧ .ok t = a := by simpa [ht] using hplay
  have happend : (Ledger.enqueued stream).Gains i
      (fanOut n (.append stream automaticId (Task.mk .enqueue r.encode t).fields)) c'
      [r.sessionId] := by
    rw [← Ledger.adds_enqueued stream r t]
    exact Ledger.gains_fanOut _ c' hi trivial
  refine happend.before_nothing fun c₂ b _ _ => ?_
  cases b <;> exact Ledger.gains_done _ i _ c₂

theorem Session.noteAndConsult_gains (L : Ledger String) (i : ℕ) (call : Call) (key : String)
    (c : Scene) : L.Gains i ((Plan.note (.called call)).bind fun _ => timeUnder key) c [] := by
  have hshape : ((Plan.note (.called call)).bind fun _ => timeUnder key).FansOut 0 :=
    .own (s := .note (.called call)) trivial fun _ => timeUnder_fansOut 0 key
  exact L.gains_of_only i c hshape.isSingle ((Plan.note_only _).bind fun _ => timeUnder_only key)

theorem Session.noteAndConsult_play {call : Call} {key : String} {c c' : Scene} {a : Result Int64}
    (h : ((Plan.note (.called call)).bind fun _ => timeUnder key).play c = (c', some a)) :
    c'.world.cache = c.world.cache ∧ a = match c.world.cache.get? key with
      | some t => .ok t
      | none => .error (.of (.session (.keyNotFound key))) := by
  obtain ⟨hcache, -, ha⟩ := Workplace.noteAndConsult_ensures call key c.world c.weather
  rw [h] at hcache ha
  exact ⟨hcache, Option.some.inj ha⟩

namespace Workplace

variable {w : Workplace} {i : ℕ}

theorem enqueueSession_gains (hi : i < w.backends) (pod : Pod) (c : Scene) :
    (Ledger.enqueued w.streams.enqueue).Gains i (w.enqueueSession pod) c
      (if c.world.times? pod then [pod.sessionId] else []) := by
  refine (noteAndConsult_gains _ i (.getNode pod.nodeName) (nodeKey pod.nodeName) c).after_nothing
    fun c₁ a _ h₁ => ?_
  obtain ⟨hcache, rfl⟩ := noteAndConsult_play h₁
  cases hn : c.world.cache.get? (nodeKey pod.nodeName) with
  | none =>
    have hunknown : c.world.times? pod = false := by simp [World.times?, hn]
    rw [hunknown]
    exact Ledger.gains_done _ i _ c₁
  | some tn =>
    refine (noteAndConsult_gains _ i (.getPod pod.sessionId) (podKey pod.sessionId)
      c₁).after_nothing fun c₂ b _ h₂ => ?_
    obtain ⟨-, rfl⟩ := noteAndConsult_play h₂
    rw [hcache]
    cases hp : c.world.cache.get? (podKey pod.sessionId) with
    | none =>
      have hunknown : c.world.times? pod = false := by simp [World.times?, hp]
      rw [hunknown]
      exact Ledger.gains_done _ i _ c₂
    | some tp =>
      have hknown : c.world.times? pod = true := by simp [World.times?, hn, hp]
      let r : Ready := ⟨pod.sessionId, pod.nodeName, tn, tp, pod.ip⟩
      have hnote : (Ledger.enqueued w.streams.enqueue).Gains i
          (Plan.note (.called (.ready r))) c₂ [] := Ledger.gains_of_own _ i c₂ trivial
      rw [if_pos hknown]
      refine hnote.after_nothing fun c₃ _ _ _ => ?_
      refine (push_gains hi w.streams.enqueue r c₃).before_nothing fun c₄ d _ _ => ?_
      cases d <;> exact Ledger.gains_done _ i _ c₄

end Workplace

/-! ### Callbacks that show a ready pod -/

namespace Cluster.PodWatch

/-- A pod of a session is shown ready: running, with all conditions met and no deletion on. -/
def Observed.showsReady (o : Observed) : Bool :=
  o.inSession && o.phase == "Running" && o.isReady && !o.deleting

def readyPod? (schema : Schema) (rules : Rules) : Callback → Option Pod
  | .updated _ new => ((observed? schema rules new).filter (·.showsReady)).map (·.pod)
  | _ => none

theorem facts_of_readyPod? {schema : Schema} {rules : Rules} {c : Callback} {pod : Pod}
    (h : readyPod? schema rules c = some pod) :
    ∃ rest, facts schema rules c = .pod .ready pod :: rest ∧
      ∀ f ∈ rest, ∀ pod', f ≠ .pod .ready pod' := by
  cases c with
  | updated old new =>
    obtain ⟨o, ho, rfl⟩ := Option.map_eq_some_iff.1 h
    obtain ⟨ho, hready⟩ := Option.filter_eq_some_iff.1 ho
    simp only [Observed.showsReady, Bool.and_eq_true, beq_iff_eq, Bool.not_eq_true'] at hready
    obtain ⟨⟨⟨hin, hphase⟩, hready⟩, hdel⟩ := hready
    have hfacts : facts schema rules (.updated old new) = .pod .ready o.pod ::
        if o.crashed then [.pod .delete o.pod.identity] else [] := by
      cases hcrashed : o.crashed <;>
        simp [facts, ho, hin, Observed.facts, hphase, Observed.runningFacts, hready, hdel, hcrashed,
          Observed.isDeletion]
    refine ⟨_, hfacts, fun f hf pod' hready => ?_⟩
    subst hready
    split at hf <;> simp at hf
  | _ => cases h

theorem not_ready_of_readyPod?_none {schema : Schema} {rules : Rules} {c : Callback}
    (h : readyPod? schema rules c = none) {f : Fact} (hf : f ∈ facts schema rules c) (pod : Pod) :
    f ≠ .pod .ready pod := by
  rintro rfl
  obtain ⟨old, new, o, rfl, ho, hin, hmem⟩ := ready_of_mem_facts hf
  obtain ⟨hphase, hready, hdel, -⟩ := Observed.of_ready_mem_facts hmem
  simp [readyPod?, ho, Observed.showsReady, hin, hphase, hready, hdel] at h

end Cluster.PodWatch

namespace Pipeline

variable {p : Pipeline} {i : ℕ}

def readyPod? (p : Pipeline) : Resource → Callback → Option Pod
  | .pods, c => PodWatch.readyPod? p.schema p.rules c
  | .nodes, _ => none

theorem on_pods (hp : p.subscriptions = Handler.wired) (c : Callback) :
    p.on .pods c = p.workplace.relayEach ((PodWatch.facts p.schema p.rules c).map ([·])) := by
  rw [on_eq_relayEach hp]
  show p.workplace.relayEach (((PodWatch.facts p.schema p.rules c).map Publication.lone).map _) = _
  rw [List.map_map]
  rfl

theorem on_only_of_readyPod?_none (hp : p.subscriptions = Handler.wired) {r : Resource}
    {c : Callback} (hnone : p.readyPod? r c = none) (stream : String) :
    (p.on r c).Only fun q => (Ledger.enqueued stream).adds q = [] := by
  refine (on_only hp r c).mono ?_
  rintro q ⟨f, hf, hq⟩
  refine Workplace.enqueues_nothing hq (fun pod hready => ?_) stream
  subst hready
  obtain ⟨rfl, hmem⟩ := pod_of_mem_facts hf
  exact PodWatch.not_ready_of_readyPod?_none hnone hmem pod rfl

/-- A callback that thrives enqueues the session of the pod that it shows ready, once, if the times
of the pod are known, and no other session. -/
theorem on_enqueues (hp : p.subscriptions = Handler.wired) (hi : i < p.workplace.backends)
    (r : Resource) (c : Callback) (scene : Scene) :
    (Ledger.enqueued p.workplace.streams.enqueue).Gains i (p.on r c) scene
      (((p.readyPod? r c).filter scene.world.times?).map (·.sessionId)).toList := by
  cases hpod : p.readyPod? r c with
  | none =>
    exact Ledger.gains_of_only _ i scene (on_fansOut hp ⟨r, c, scene.weather⟩).isSingle
      (on_only_of_readyPod?_none hp hpod _)
  | some pod =>
    cases r with
    | nodes => cases hpod
    | pods =>
      obtain ⟨rest, hfacts, hrest⟩ := PodWatch.facts_of_readyPod? hpod
      have hon : p.on .pods c = ((p.workplace.relay [.pod .ready pod]).bind fun _ =>
          p.workplace.relayEach (rest.map ([·]))).afterStamps 1 := by
        rw [on_pods hp, hfacts]
        rfl
      rw [hon]
      refine Ledger.Gains.afterStamps (fun c₁ hcache => ?_) 1
      have hnew : (((some pod).filter scene.world.times?).map (·.sessionId)).toList =
          if c₁.world.times? pod then [pod.sessionId] else [] := by
        have htimes : c₁.world.times? pod = scene.world.times? pod := by
          rw [World.times?, hcache, World.times?]
        rw [htimes]
        cases hknown : scene.world.times? pod <;> simp [Option.filter, hknown]
      have hfirst : (Ledger.enqueued p.workplace.streams.enqueue).Gains i
          (p.workplace.relay [.pod .ready pod]) c₁
          (if c₁.world.times? pod then [pod.sessionId] else []) := by
        refine (Workplace.enqueueSession_gains hi pod c₁).before_nothing fun c₂ a _ _ => ?_
        cases a <;> exact Ledger.gains_done _ i _ c₂
      rw [hnew]
      refine hfirst.before_nothing fun c₂ _ _ _ => ?_
      refine Ledger.gains_of_only _ i c₂ (p.workplace.relayEach_fansOut _).isSingle
        (p.workplace.relayEach_only fun f hf q hq => ?_)
      have hmem : f ∈ rest := by simpa using hf
      exact Workplace.enqueues_nothing hq (hrest f hmem) _

end Pipeline

/-! ### From a recording to the next deletion -/

def Fact.tells (change : PodChange) (sid : String) : Fact → Bool
  | .pod c x => c = change && x.sessionId == sid
  | _ => false

theorem Fact.tells_iff {change : PodChange} {sid : String} {f : Fact} :
    f.tells change sid = true ↔ ∃ pod, f = .pod change pod ∧ pod.sessionId = sid := by
  cases f <;> simp [tells]

theorem Cluster.PodWatch.facts_of_recordSchedule {schema : Schema} {rules : Rules} {c : Callback}
    {pod : Pod} (h : .pod .recordSchedule pod ∈ facts schema rules c) :
    facts schema rules c = [.pod .recordSchedule pod] := by
  have hobserved : ∀ o : Observed, .pod .recordSchedule pod ∈ o.facts →
      o.facts = [.pod .recordSchedule pod] := by
    intro o ho
    unfold Observed.facts at ho ⊢
    split at ho
    · simp at ho
    · simp at ho
    · simp at ho
    · split at ho
      · next hscheduled =>
        obtain rfl : pod = o.pod.identity := by simpa using ho
        rw [if_pos hscheduled]
      · simp at ho
    · rcases Observed.of_mem_runningFacts ho with hf | hf <;> cases hf
    · simp at ho
  cases c with
  | updated old new =>
    simp only [facts] at h ⊢
    split at h
    · split at h
      · next hin =>
        rw [if_pos hin]
        exact hobserved _ h
      · simp at h
    · simp at h
  | added o =>
    simp only [facts] at h
    split at h
    · split at h <;> simp at h
    · simp at h
  | deleted o => simp [facts] at h
  | failed message => simp [facts] at h

theorem Course.session_known {p : Pipeline} {w v : World} {hs : List Handling} {sid : String}
    (hp : p.subscriptions = Handler.wired) (hc : Course p w hs v)
    (hno : ∀ h ∈ hs, h.event.fact.tells .delete sid = false)
    (hw : (w.cache.get? (podKey sid)).isSome) : (v.cache.get? (podKey sid)).isSome := by
  induction hc with
  | quiet hq => rwa [hq.cache]
  | @handled w v h hs hq hg _ ih =>
    refine ih (fun g hg => hno g (by simp [hg])) ?_
    rw [← hq.cache] at hw
    rcases (hg.effect hp).session_cases sid with ⟨-, hkept⟩ | ⟨pod, t, -, -, -, -, ht⟩ |
      ⟨pod, hfact, hsid, -⟩
    · rwa [hkept]
    · rw [ht]
      rfl
    · have htold : h.event.fact.tells .delete sid = true := Fact.tells_iff.2 ⟨pod, hfact, hsid⟩
      rw [hno h (by simp)] at htold
      cases htold

namespace Workplace

variable {w : Workplace}

theorem recordSchedule_play_of_thrives (hk : 0 < w.backends) {pod : Pod} {c : Scene}
    (h : (w.recordSchedule pod).Thrives c) :
    ∃ c', (w.recordSchedule pod).play c = (c', some (.ok ())) ∧
      (c'.world.cache.get? (podKey pod.sessionId)).isSome := by
  obtain ⟨hfan, -⟩ := h.bind
  obtain ⟨c₁, t, hplay⟩ := fanOut_play_of_thrives hk hfan
  refine ⟨_, Plan.play_bind_of_some hplay _, ?_⟩
  show ((c₁.world.cache.insert (podKey pod.sessionId) t).get? (podKey pod.sessionId)).isSome
  simp

end Workplace

namespace Pipeline

variable {p : Pipeline} {i : ℕ} {sid : String}

def tells (p : Pipeline) (change : PodChange) (sid : String) (o : Occasion) : Bool :=
  (p.facts o.resource o.callback).any (·.tells change sid)

theorem session_known (hp : p.subscriptions = Handler.wired) {w : World} {o : Occasion}
    (hno : p.tells .delete sid o = false) (hw : (w.cache.get? (podKey sid)).isSome) :
    ((p.meet w o).cache.get? (podKey sid)).isSome := by
  refine (p.course_handlings w o).session_known hp (fun h hh => ?_) hw
  have hall := List.any_eq_false.1 hno _ (p.facts_handlings hh)
  exact Bool.eq_false_iff.2 hall

theorem session_known_of_recorded (hp : p.subscriptions = Handler.wired)
    (hk : 0 < p.workplace.backends) {w : World} {o : Occasion}
    (htold : p.tells .recordSchedule sid o = true)
    (h : (p.on o.resource o.callback).Thrives ⟨w, o.weather⟩) :
    ((p.meet w o).cache.get? (podKey sid)).isSome := by
  obtain ⟨r, c, ω⟩ := o
  obtain ⟨f, hf, htells⟩ := List.any_eq_true.1 htold
  obtain ⟨pod, rfl, rfl⟩ := Fact.tells_iff.1 htells
  obtain ⟨rfl, hmem⟩ := pod_of_mem_facts hf
  have hon : p.on .pods c =
      ((p.workplace.relay [.pod .recordSchedule pod]).bind fun _ => .done ()).afterStamps 1 := by
    rw [on_pods hp, PodWatch.facts_of_recordSchedule hmem]
    rfl
  rw [hon] at h
  obtain ⟨c', hthrives, hplay⟩ := h.afterStamps
  obtain ⟨hrecord, -⟩ := (hthrives.bind).1.bind
  obtain ⟨c₁, hrecorded, hknown⟩ :
      ∃ c₁, (p.workplace.attend (.pod .recordSchedule pod)).play c' = (c₁, some (.ok ())) ∧
        (c₁.world.cache.get? (podKey pod.sessionId)).isSome :=
    Workplace.recordSchedule_play_of_thrives hk hrecord
  rw [meet, hon, hplay, Plan.play_bind_done, Workplace.relay_cons_play hrecorded]
  exact hknown

/-- A callback shows the pod of the session ready on a node whose time is known. -/
def delivers (p : Pipeline) (sid : String) (w : World) (o : Occasion) : Bool :=
  (p.readyPod? o.resource o.callback).any fun pod =>
    pod.sessionId == sid && (w.cache.get? (nodeKey pod.nodeName)).isSome

/-- How many callbacks of a run do so. -/
def deliveries (p : Pipeline) (sid : String) : World → List Occasion → ℕ
  | _, [] => 0
  | w, o :: os => (if p.delivers sid w o then 1 else 0) + deliveries p sid (p.meet w o) os

/-- While the time of the session is known, each such callback enqueues it once. -/
theorem count_enqueued {w : World} (hw : (w.cache.get? (podKey sid)).isSome) (o : Occasion) :
    ((((p.readyPod? o.resource o.callback).filter w.times?).map (·.sessionId)).toList).count sid =
      if p.delivers sid w o then 1 else 0 := by
  cases hpod : p.readyPod? o.resource o.callback with
  | none => simp [delivers, hpod]
  | some pod =>
    by_cases hsid : pod.sessionId = sid
    · have htimes : w.times? pod = (w.cache.get? (nodeKey pod.nodeName)).isSome := by
        simp [World.times?, hsid, hw]
      cases hnode : (w.cache.get? (nodeKey pod.nodeName)).isSome <;>
        simp [delivers, hpod, Option.filter, htimes, hnode, hsid]
    · cases htimes : w.times? pod <;> simp [delivers, hpod, Option.filter, htimes, hsid]

theorem enqueued_meetAll (hp : p.subscriptions = Handler.wired) (hi : i < p.workplace.backends)
    {w : World} {os : List Occasion} (h : p.Prospers w os)
    (hno : ∀ o ∈ os.dropLast, p.tells .delete sid o = false)
    (hw : (w.cache.get? (podKey sid)).isSome) :
    ∃ new, (Ledger.enqueued p.workplace.streams.enqueue).read (p.meetAll w os) i =
        (Ledger.enqueued p.workplace.streams.enqueue).read w i ++ new ∧
      new.count sid = p.deliveries sid w os := by
  induction os generalizing w with
  | nil => exact ⟨[], (List.append_nil _).symm, rfl⟩
  | cons o os ih =>
    let first := (((p.readyPod? o.resource o.callback).filter w.times?).map (·.sessionId)).toList
    have hfirst : (Ledger.enqueued p.workplace.streams.enqueue).read (p.meet w o) i =
        (Ledger.enqueued p.workplace.streams.enqueue).read w i ++ first :=
      on_enqueues hp hi o.resource o.callback ⟨w, o.weather⟩ h.1
    have hcount : first.count sid = if p.delivers sid w o then 1 else 0 := count_enqueued hw o
    cases os with
    | nil => exact ⟨first, hfirst, hcount⟩
    | cons o' os =>
      rw [List.dropLast_cons_cons] at hno
      have hknown := session_known hp (hno o (by simp)) hw
      obtain ⟨rest, hrest, hmore⟩ := ih h.2 (fun x hx => hno x (by simp [hx])) hknown
      refine ⟨first ++ rest, ?_, ?_⟩
      · rw [meetAll_cons, hrest, hfirst, List.append_assoc]
      · rw [List.count_append, hcount, hmore]
        rfl

end Pipeline

/-- From the recording of a session's schedule on, until the session is deleted, a run in which no
backend fails appends one task to enqueue the session for each callback that shows its pod ready
while the time of the pod's node is known, however often that is, and none for any other
callback. -/
theorem enqueued_once_per_delivery (s : Settings) (schema : Schema) {n i : ℕ} (hi : i < n)
    {w : World} {first : Occasion} {os : List Occasion} {sid : String}
    (hhealthy : (s.pipeline n Handler.wired schema).Prospers w (first :: os))
    (hrecorded : (s.pipeline n Handler.wired schema).tells .recordSchedule sid first = true)
    (hkept : ∀ o ∈ os.dropLast, (s.pipeline n Handler.wired schema).tells .delete sid o = false) :
    let p := s.pipeline n Handler.wired schema
    let start := p.meet w first
    ∃ new, (p.meetAll start os).entries i s.enqueueStream = start.entries i s.enqueueStream ++ new ∧
      (new.filterMap enqueued?).count sid = p.deliveries sid start os := by
  intro p start
  have hn : 0 < n := Nat.zero_lt_of_lt hi
  have hknown := Pipeline.session_known_of_recorded (p := p) rfl hn hrecorded hhealthy.1
  obtain ⟨new, hnew⟩ := (p.course_history start os).entries_append rfl i s.enqueueStream
  obtain ⟨sids, hsids, hcount⟩ := Pipeline.enqueued_meetAll (p := p) rfl hi hhealthy.2 hkept hknown
  refine ⟨new, hnew, ?_⟩
  have hread : ∀ v : World, (Ledger.enqueued p.workplace.streams.enqueue).read v i =
      (v.entries i s.enqueueStream).filterMap enqueued? := fun v =>
    Ledger.read_filterMap _ _ v i
  rw [hread, hread, hnew, List.filterMap_append] at hsids
  rw [List.append_cancel_left hsids, hcount]

/-! The pod is applied, applied again as it is, applied when it is ready, and then listed without a
change. -/

namespace Sample

def items : List Item :=
  [.change (.applied pending), .change (.applied pending), .change (.applied ready),
    .change (.relisted [ready])]

def added : World :=
  (Settings.pipeline {} 2 Handler.wired).meetAll world
    [⟨.nodes, .added node, calm 1000⟩, ⟨.pods, .added pending, calm 2000⟩]

def scheduling : Occasion := ⟨.pods, .updated pending pending, calm 3000⟩

def relisting : List Occasion :=
  [⟨.pods, .updated pending ready, calm 4000⟩, ⟨.pods, .updated ready ready, calm 5000⟩]

end Sample

theorem enqueued_once_per_delivery_sample :
    let p := Settings.pipeline {} 2 Handler.wired
    1 < 2 ∧ p.Prospers Sample.added (Sample.scheduling :: Sample.relisting) ∧
      p.tells .recordSchedule "s1" Sample.scheduling = true ∧
      (∀ o ∈ Sample.relisting.dropLast, p.tells .delete "s1" o = false) ∧
      ∃ new, (p.meetAll (p.meet Sample.added Sample.scheduling) Sample.relisting).entries 1
          (Settings.enqueueStream {}) =
            (p.meet Sample.added Sample.scheduling).entries 1 (Settings.enqueueStream {}) ++ new ∧
        (new.filterMap enqueued?).count "s1" = 2 := by
  intro p
  have hhealthy : p.Prospers Sample.added (Sample.scheduling :: Sample.relisting) :=
    ⟨⟨by decide +kernel, by decide +kernel⟩, ⟨by decide +kernel, by decide +kernel⟩,
      ⟨by decide +kernel, by decide +kernel⟩, trivial⟩
  have hrecorded : p.tells .recordSchedule "s1" Sample.scheduling = true := by decide +kernel
  have hkept : ∀ o ∈ Sample.relisting.dropLast, p.tells .delete "s1" o = false := by decide +kernel
  have hcount : p.deliveries "s1" (p.meet Sample.added Sample.scheduling) Sample.relisting = 2 := by
    decide +kernel
  obtain ⟨new, hnew, hdeliveries⟩ :=
    enqueued_once_per_delivery {} .v1 (by decide : 1 < 2) hhealthy hrecorded hkept
  exact ⟨by decide, hhealthy, hrecorded, hkept, new, hnew, hdeliveries.trans hcount⟩

/-- What the store makes of the items has the session recorded once and enqueued twice, without a
recording or a deletion in between. -/
theorem relist_enqueues_again :
    let p := Settings.pipeline {} 2 Handler.wired
    (({} : Store).receiveAll Sample.items).2 =
        .added Sample.pending :: Sample.scheduling.callback :: Sample.relisting.map (·.callback) ∧
      p.Prospers Sample.added (Sample.scheduling :: Sample.relisting) ∧
      p.tells .recordSchedule "s1" Sample.scheduling = true ∧
      (∀ o ∈ Sample.relisting,
        p.tells .recordSchedule "s1" o = false ∧ p.tells .delete "s1" o = false) ∧
      (p.meet Sample.added Sample.scheduling).entries 0 (Settings.enqueueStream {}) = [] ∧
      ((p.meetAll (p.meet Sample.added Sample.scheduling) Sample.relisting).entries 0
        (Settings.enqueueStream {})).filterMap enqueued? = ["s1", "s1"] := by
  refine ⟨rfl, ⟨⟨by decide +kernel, by decide +kernel⟩, ⟨by decide +kernel, by decide +kernel⟩,
    ⟨by decide +kernel, by decide +kernel⟩, trivial⟩, by decide +kernel, by decide +kernel,
    by decide +kernel, by decide +kernel⟩

end SessionWatch
