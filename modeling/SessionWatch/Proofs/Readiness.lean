import SessionWatch.Proofs.Fence
import SessionWatch.Proofs.Recollection
import SessionWatch.Proofs.Relay
import SessionWatch.Proofs.Submission

/-!
Pods that are ready. Both times of a session are asked for in turn, the node's first; where one is
missing nothing else is done, and the report names its key. Where both are known the sessions are
told once, and how they fare is how the event fares.
-/

namespace SessionWatch

open Session Storage

theorem Session.push_fails_as_session {n : ℕ} {stream : String} {kind : TaskKind} {info : String}
    {c c' : Scene} {e : Report}
    (h : (push n stream kind info).play c = (c', some (.error e))) :
    e.outermost? = some (.session .storage) := by
  rw [push_eq, Plan.play_bind] at h
  rcases htime : (fanOut n .time).play c with ⟨c₁, _ | (r | t)⟩ <;> rw [htime] at h
  · cases h
  · cases h
    rfl
  · simp only [Plan.play_bind_done] at h
    obtain ⟨a, -, ha⟩ := Option.map_eq_some_iff.1 (congrArg Prod.snd h)
    cases a with
    | error r =>
      cases ha
      rfl
    | ok id => cases ha

/-! ### What becomes of the event -/

/-- A ready pod is turned away: times were looked for up to one that is missing, and that is all.
The report says so from the outside inwards. -/
structure TurnedAway (looks : List Look) (key : String) (w v : World) (x : Result Unit)
    (ds : List Deed) : Prop where
  steps : ds = looks.flatMap Look.deeds
  calls : w.callsUntil v = looks.map (·.call)
  unasked : ∀ i, requestsTo i ds = []
  unchanged : v = w.called (looks.map (·.call)) v.clock
  failed : x = .error ⟨[.cause (.delivery (.handlerFailed "PodReadyEvent")),
    .cause (.handling .session), .cause (.session (.keyNotFound key))]⟩

/-- A ready pod is admitted: once its times are found the sessions are told of it. What they then
do, from the scene that they are told in, is all that is done, and what they answer decides. -/
structure Admitted (p : Workplace) (looks : List Look) (r : Ready) (w v : World) (x : Result Unit)
    (ds : List Deed) (start : Scene) (y : Result String) : Prop where
  reached : start.world = w.called (looks.map (·.call) ++ [.ready r]) start.world.clock
  told : ∃ ω', (setReady p.backends p.streams r).play start = (⟨v, ω'⟩, some y)
  steps : ds = looks.flatMap Look.deeds ++
    ⟨.note (.called (.ready r)), ()⟩ :: (setReady p.backends p.streams r).deeds start
  calls : w.callsUntil v = looks.map (·.call) ++ [.ready r]
  asked : ∀ i, requestsTo i ds = requestsTo i ((setReady p.backends p.streams r).deeds start)
  kept : v.cache = w.cache
  fails_as : isFailure x = isFailure y
  failed : ∀ e, y = .error e → e.outermost? = some (.session .storage) ∧
    x = .error ((e.because (.handling .session)).because
      (.delivery (.handlerFailed "PodReadyEvent")))

theorem requestsTo_looks (looks : List Look) (i : ℕ) :
    requestsTo i (looks.flatMap Look.deeds) = [] := by
  induction looks with
  | nil => rfl
  | cons l looks ih =>
    rw [List.flatMap_cons, requestsTo_append, ih]
    rfl

theorem TurnedAway.of_looks (looks : List Look) {key : String} {w : World} {clock : Clock}
    {ds : List Deed} (hds : ds = looks.flatMap Look.deeds) :
    TurnedAway looks key w (w.called (looks.map (·.call)) clock)
      (.error ⟨[.cause (.delivery (.handlerFailed "PodReadyEvent")), .cause (.handling .session),
        .cause (.session (.keyNotFound key))]⟩) ds where
  steps := hds
  calls := World.callsUntil_of_notes _ rfl
  unasked i := by rw [hds, requestsTo_looks]
  unchanged := rfl
  failed := rfl

theorem Workplace.tell_play {p : Workplace} {w : World} {r : Ready} (looks : List Look)
    (clock : Clock) (ω : Weather) :
    let c : Scene := ⟨w.called (looks.map (·.call)) clock, ω⟩
    ∃ v ω' y z start, (p.tell r).play c = (⟨v, ω'⟩, some z) ∧
      Admitted p looks r w v (z.because (.delivery (.handlerFailed "PodReadyEvent")))
        (looks.flatMap Look.deeds ++ (p.tell r).deeds c) start y := by
  intro c
  let start : Scene := ⟨w.called (looks.map (·.call) ++ [.ready r]) (ω 0).clock, fun k => ω (k + 1)⟩
  have hnote : (Plan.note (.called (.ready r))).play c = (start, some ()) := by
    rw [Plan.play_note]
    simp only [World.called, start, List.map_append, List.append_assoc]
    rfl
  have hends := (setReady_lasting p.backends p.streams r).ends start
  obtain ⟨y, hy⟩ := Option.isSome_iff_exists.1 hends
  rcases hplay : (setReady p.backends p.streams r).play start with ⟨⟨v, ω'⟩, x⟩
  rw [hplay] at hy
  obtain rfl : x = some y := hy
  obtain ⟨hcache, hnotes, -⟩ := push_ensures p.backends p.streams.enqueue .enqueue r.encode
    start.world start.weather
  rw [← setReady, hplay] at hcache hnotes
  have hsteps : (p.tell r).deeds c = ⟨.note (.called (.ready r)), ()⟩ ::
      (setReady p.backends p.streams r).deeds start := by
    rw [tell, Plan.deeds_bind_of_some hnote, Plan.deeds_bind_done]
    rfl
  have hend : (p.tell r).play c =
      (⟨v, ω'⟩, some ((y.because (.handling .session)).map fun _ => ())) := by
    rw [tell, Plan.play_bind_of_some hnote, Plan.play_bind_done, hplay]
    rfl
  refine ⟨v, ω', y, _, start, hend, ?_⟩
  rw [hsteps]
  exact
    { reached := rfl
      told := ⟨ω', hplay⟩
      steps := rfl
      calls := World.callsUntil_of_notes _ (by rw [hnotes]; rfl)
      asked := fun i => by
        rw [requestsTo_append, requestsTo_looks, List.nil_append, requestsTo_cons]
        exact List.nil_append _
      kept := hcache
      fails_as := by cases y <;> rfl
      failed := fun e he => by
        subst he
        exact ⟨push_fails_as_session hplay, rfl⟩ }

theorem Pipeline.publish_ready {p : Pipeline} (hp : p.subscriptions = Handler.wired) {e : Event}
    {pod : Pod} (he : e.fact = .pod .ready pod) :
    p.publish [e] = (p.workplace.enqueueSession pod).bind fun x =>
      .done (x.because (.delivery (.handlerFailed "PodReadyEvent"))) := by
  rw [publish_eq_relay hp, List.map_cons, he]
  refine congrArg (Plan.bind _) (funext fun x => ?_)
  cases x <;> rfl

/-- Whatever the times remembered, the backends and the weather, a ready pod that is published comes
to one of three ends, and the times stay as they were. Without the node's time the pod is turned
away after that one call, even if the other time is missing too; without the time of its scheduling
it is turned away after two; and with both it is admitted with just these times. -/
theorem ready_pod_turned_away_or_admitted {p : Pipeline} (hp : p.subscriptions = Handler.wired)
    {e : Event} {pod : Pod} (he : e.fact = .pod .ready pod) (w : World) (ω : Weather) :
    let node := Workplace.nodeLook pod w
    let session := Workplace.podLook pod w
    let ds := (p.publish [e]).deeds ⟨w, ω⟩
    ∃ v ω' x, (p.publish [e]).play ⟨w, ω⟩ = (⟨v, ω'⟩, some x) ∧ v.cache = w.cache ∧
      (w.cache.get? (nodeKey pod.nodeName) = none →
        TurnedAway [node] (nodeKey pod.nodeName) w v x ds) ∧
      ((w.cache.get? (nodeKey pod.nodeName)).isSome → w.cache.get? (podKey pod.sessionId) = none →
        TurnedAway [node, session] (podKey pod.sessionId) w v x ds) ∧
      ∀ tn tp, w.cache.get? (nodeKey pod.nodeName) = some tn →
        w.cache.get? (podKey pod.sessionId) = some tp →
          ∃ start y, Admitted p.workplace [node, session]
            ⟨pod.sessionId, pod.nodeName, tn, tp, pod.ip⟩ w v x ds start y := by
  intro node session ds
  have hds : ds = (p.workplace.enqueueSession pod).deeds ⟨w, ω⟩ := by
    show (p.publish [e]).deeds _ = _
    rw [p.publish_ready hp he, Plan.deeds_bind_done]
  rw [p.publish_ready hp he, Plan.play_bind_done]
  cases hn : w.cache.get? (nodeKey pod.nodeName) with
  | none =>
    obtain ⟨hplay, hdeeds⟩ := Workplace.enqueueSession_of_unprovisioned (p := p.workplace) ω hn
    rw [hplay]
    refine ⟨_, _, _, rfl, rfl, fun _ => ?_, nofun, nofun⟩
    exact TurnedAway.of_looks [node] (by rw [hds, hdeeds]; rfl)
  | some tn =>
    cases hs : w.cache.get? (podKey pod.sessionId) with
    | none =>
      obtain ⟨hplay, hdeeds⟩ :=
        Workplace.enqueueSession_of_unscheduled (p := p.workplace) ω hn hs
      rw [hplay]
      refine ⟨_, _, _, rfl, rfl, nofun, fun _ _ => ?_, nofun⟩
      exact TurnedAway.of_looks [node, session] (by rw [hds, hdeeds]; rfl)
    | some tp =>
      obtain ⟨hplay, hdeeds⟩ := Workplace.enqueueSession_of_known (p := p.workplace) ω hn hs
      obtain ⟨v, ω', y, z, start, hend, hadmitted⟩ := Workplace.tell_play (p := p.workplace)
        (w := w) (r := ⟨pod.sessionId, pod.nodeName, tn, tp, pod.ip⟩) [node, session]
        (ω 3).clock (fun k => ω (k + 4))
      have hsteps := hds.trans hdeeds
      rw [hplay, hend]
      refine ⟨v, ω', _, rfl, hadmitted.kept, nofun, nofun, fun _ _ htn htp => ?_⟩
      cases htn
      cases htp
      refine ⟨start, y, ?_⟩
      rw [hsteps]
      exact hadmitted

/-- Two stores, of which the second will refuse to append, and these times. -/
def Sample.remembering (times : List (String × Int64)) : World :=
  { world with cache := .ofList times }

/-- Without the node's time, without the other one, and with both where one store refuses. -/
theorem ready_pod_turned_away_or_admitted_sample :
    let p := Settings.pipeline {} 2 Handler.wired
    let node := (nodeKey "n1", (1 : Int64))
    let session := (podKey "s1", (2 : Int64))
    let ended := fun times =>
      (p.publish [Sample.readiness]).play ⟨Sample.remembering times, Sample.halfOpen⟩
    p.subscriptions = Handler.wired ∧
      (ended []).2 = some (.error ⟨[.cause (.delivery (.handlerFailed "PodReadyEvent")),
        .cause (.handling .session),
        .cause (.session (.keyNotFound "NodeProvisionTimeStamp.n1"))]⟩) ∧
      (Sample.remembering []).callsUntil (ended []).1.world = [.getNode "n1"] ∧
      (ended [node]).2 = some (.error ⟨[.cause (.delivery (.handlerFailed "PodReadyEvent")),
        .cause (.handling .session), .cause (.session (.keyNotFound "PodScheduleTimeStamp.s1"))]⟩) ∧
      (Sample.remembering [node]).callsUntil (ended [node]).1.world =
        [.getNode "n1", .getPod "s1"] ∧
      (∃ r, (ended [node, session]).2 = some (.error r) ∧ r.outermost? =
        some (.delivery (.handlerFailed "PodReadyEvent"))) ∧
      (Sample.remembering [node, session]).callsUntil (ended [node, session]).1.world =
        [.getNode "n1", .getPod "s1", .ready ⟨"s1", "n1", 1, 2, "10.0.0.1"⟩] := by
  intro p node session ended
  have hcomes := fun times => ready_pod_turned_away_or_admitted (p := p) rfl
    (e := Sample.readiness) rfl (Sample.remembering times) Sample.halfOpen
  obtain ⟨v₀, ω₀, x₀, hplay₀, -, hnode, -⟩ := hcomes []
  obtain ⟨v₁, ω₁, x₁, hplay₁, -, -, hsession, -⟩ := hcomes [node]
  obtain ⟨v₂, ω₂, x₂, hplay₂, -, -, -, hknown⟩ := hcomes [node, session]
  have haway₀ := hnode (by decide +kernel)
  have haway₁ := hsession (by decide +kernel) (by decide +kernel)
  obtain ⟨start, y, hadmitted⟩ := hknown 1 2 (by decide +kernel) (by decide +kernel)
  have hended₀ : ended [] = (⟨v₀, ω₀⟩, some x₀) := hplay₀
  have hended₁ : ended [node] = (⟨v₁, ω₁⟩, some x₁) := hplay₁
  have hended₂ : ended [node, session] = (⟨v₂, ω₂⟩, some x₂) := hplay₂
  have hrefused : (ended [node, session]).2.map isFailure = some true := by decide +kernel
  rw [hended₂] at hrefused
  have hfails : isFailure y = true := by
    rw [← hadmitted.fails_as]
    exact Option.some.inj hrefused
  rw [hended₀, hended₁, hended₂]
  refine ⟨rfl, congrArg some haway₀.failed, haway₀.calls, congrArg some haway₁.failed,
    haway₁.calls, ?_, hadmitted.calls⟩
  cases y with
  | error e => exact ⟨_, congrArg some (hadmitted.failed e rfl).2, rfl⟩
  | ok id => cases hfails

end SessionWatch
